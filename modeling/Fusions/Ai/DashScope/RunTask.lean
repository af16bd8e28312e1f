import Mathlib.Data.List.Nodup
import Fusions.Ai.OpenAiCompatible.Streaming
import Fusions.Hetuflow.Core.Json

/-! The run-task message of real-time Fun-ASR: how a stream's configuration is checked and what of it is sent. -/
namespace Fusions.Ai
open Fusions.Hetuflow Fusions.Library

inductive SpeechToTextError where
  | configInvalid (message : String)
  | unsupported (provider capability : String)
  | auth (message : String)
  | network (message : String)
  | protocol (message : String)
  | provider (provider code message : String) (retryable : Bool)
  | timeout (message : String)
  | other (message : String)
  deriving DecidableEq, Repr

structure AudioStreamConfig where
  sampleRate : UInt32
  languageHints : List String
  vocabularyIds : List String
  contextItems : List String
  domainHint : Option String
  providerOptions : Json
  /-- A JSON object has each key once. -/
  nodup : ∀ map, providerOptions = .obj map → (map.map Prod.fst).Nodup

namespace FunAsr

def maxContextItemChars : Nat := 400

def maxContextItems : Nat := 5

def reservedOptionKeys : List String :=
  ["format", "sample_rate", "vocabulary_id", "language_hints", "disfluency_removal_enabled",
    "punctuation_prediction_enabled", "inverse_text_normalization_enabled", "domain_hint"]

def boolOverrideKeys : List String :=
  ["disfluency_removal_enabled", "punctuation_prediction_enabled", "inverse_text_normalization_enabled"]

def jsonTypeName : Json → String
  | .null => "null"
  | .bool _ => "boolean"
  | .num _ | .decimal _ => "number"
  | .str _ => "string"
  | .arr _ => "array"
  | .obj _ => "object"

/-- `Value::as_bool`. -/
def asBool : Json → Option Bool
  | .bool b => some b
  | _ => none

def validateContextItems (items : List String) : Except SpeechToTextError Unit :=
  let meaningful := items.countP fun s => trim s != ""
  if meaningful > maxContextItems then
    .error (.configInvalid
      s!"fun-asr-realtime accepts at most {maxContextItems} context items, got {meaningful}")
  else
    match items.findIdx? fun s => (trim s).length > maxContextItemChars with
    | some pos => .error (.configInvalid
        s!"fun-asr-realtime context item #{pos} exceeds {maxContextItemChars} chars")
    | none => .ok ()

/-- The text of a list of keys in a message. -/
def debugKeys (keys : List String) : String :=
  "[" ++ ", ".intercalate (keys.map fun key => "\"" ++ key ++ "\"") ++ "]"

/-- The reserved keys that a map of options has and that are none of the booleans. -/
def offending (map : List (String × Json)) : List String :=
  reservedOptionKeys.filter fun key => !boolOverrideKeys.contains key && (map.map Prod.fst).contains key

/-- The first of the booleans that is none. -/
def nonBoolean (map : List (String × Json)) : Option (String × Json) :=
  boolOverrideKeys.findSome? fun key =>
    (map.lookup key).bind fun value => if (asBool value).isSome then none else some (key, value)

def validateProviderOptions (options : Json) : Except SpeechToTextError Unit :=
  match options with
  | .null => .ok ()
  | .obj map =>
    if offending map ≠ [] then
      .error (.configInvalid
        (s!"provider_options may not override the named parameter(s) {debugKeys (offending map)}; " ++
          "set them on AudioStreamConfig instead"))
    else
      match nonBoolean map with
      | some (key, value) => .error (.configInvalid
          s!"provider_options.{key} must be a boolean, got {jsonTypeName value}")
      | none => .ok ()
  | other => .error (.configInvalid s!"provider_options must be a JSON object, got {jsonTypeName other}")

/-- The primary subtag of a language tag: what stands before the first `-` or `_`. -/
def primarySubtag (hint : String) : String :=
  (trim (String.ofList (hint.toList.takeWhile fun c => c != '-' && c != '_'))).map Char.toLower

def primaryLanguageSubtags (hints : List String) : List String :=
  hints.foldl (fun out hint =>
    let primary := primarySubtag hint
    if primary != "" && !out.contains primary then out ++ [primary] else out) []

structure ContextItem where
  text : String
  deriving DecidableEq, Repr

/-- The last of the items that are not blank, each cut to the limit. -/
def clampContext (items : List String) : List ContextItem :=
  let kept := (items.map trim).filter (· != "")
  (kept.drop (kept.length - maxContextItems)).map fun s =>
    if s.length > maxContextItemChars then ⟨String.ofList (s.toList.take maxContextItemChars)⟩ else ⟨s⟩

structure RunTaskParameters where
  format : String
  sampleRate : UInt32
  vocabularyId : List String
  languageHints : List String
  disfluencyRemovalEnabled : Bool
  punctuationPredictionEnabled : Bool
  inverseTextNormalizationEnabled : Bool
  extra : List (String × Json)

structure RunTaskPayload where
  taskGroup : String
  task : String
  function : String
  model : String
  parameters : RunTaskParameters
  context : List ContextItem

structure ClientHeader where
  action : String
  taskId : String
  streaming : String

structure ClientMessage (P : Type) where
  header : ClientHeader
  payload : P

/-- A list that is left out if it is empty. -/
def unlessEmpty (key : String) (items : List String) : List (String × Json) :=
  if items = [] then [] else [(key, .arr (items.map .str))]

namespace RunTaskParameters
variable (parameters : RunTaskParameters)

def named : List (String × Json) :=
  [("format", .str parameters.format), ("sample_rate", .num parameters.sampleRate.toNat)] ++
    unlessEmpty "vocabulary_id" parameters.vocabularyId ++ unlessEmpty "language_hints" parameters.languageHints ++
    [("disfluency_removal_enabled", .bool parameters.disfluencyRemovalEnabled),
      ("punctuation_prediction_enabled", .bool parameters.punctuationPredictionEnabled),
      ("inverse_text_normalization_enabled", .bool parameters.inverseTextNormalizationEnabled)]

/-- The entries of the object as they are written: the flattened map follows the fields, and no key is looked for. -/
def serialize : List (String × Json) := parameters.named ++ parameters.extra

end RunTaskParameters

/-- The message as it is written. -/
def ClientMessage.serialize (message : ClientMessage RunTaskPayload) : Json :=
  let payload := message.payload
  .obj [
    ("header", .obj [("action", .str message.header.action), ("task_id", .str message.header.taskId),
      ("streaming", .str message.header.streaming)]),
    ("payload", .obj [("task_group", .str payload.taskGroup), ("task", .str payload.task),
      ("function", .str payload.function), ("model", .str payload.model),
      ("parameters", .obj payload.parameters.serialize),
      ("input", .obj (if payload.context = [] then []
        else [("context", .arr (payload.context.map fun item => .obj [("text", .str item.text)]))]))])]

def readBool (options : Json) (key : String) (default : Bool) : Bool :=
  ((options.get key).bind asBool).getD default

/-- The options that go into the flattened map: those with no reserved key. -/
def optionParams : Json → List (String × Json)
  | .obj map => map.foldl (fun extra entry =>
      if reservedOptionKeys.contains entry.1 then extra else Json.insert extra entry.1 entry.2) []
  | _ => []

def extraParams (config : AudioStreamConfig) : List (String × Json) :=
  let extra := optionParams config.providerOptions
  match config.domainHint with
  | some domain => Json.insert extra "domain_hint" (.str domain)
  | none => extra

def buildRunTask (taskId model : String) (config : AudioStreamConfig) (format : String) :
    ClientMessage RunTaskPayload where
  header := ⟨"run-task", taskId, "duplex"⟩
  payload := {
    taskGroup := "audio"
    task := "asr"
    function := "recognition"
    model := model
    parameters := {
      format := format
      sampleRate := config.sampleRate
      vocabularyId := config.vocabularyIds
      languageHints := primaryLanguageSubtags config.languageHints
      disfluencyRemovalEnabled := readBool config.providerOptions "disfluency_removal_enabled" false
      punctuationPredictionEnabled := readBool config.providerOptions "punctuation_prediction_enabled" true
      inverseTextNormalizationEnabled := readBool config.providerOptions "inverse_text_normalization_enabled" true
      extra := extraParams config }
    context := clampContext config.contextItems }

section
variable {entries : List (String × Json)} {key : String} {value : Json}

theorem filter_key_of_not_mem (h : key ∉ entries.map Prod.fst) : entries.filter (·.1 == key) = [] := by
  rw [List.filter_eq_nil_iff]
  intro entry hentry heq
  exact h (List.mem_map.2 ⟨entry, hentry, beq_iff_eq.1 heq⟩)

/-- Among distinct keys, an entry is the only one with its key. -/
theorem filter_key_of_mem (hnodup : (entries.map Prod.fst).Nodup) (h : (key, value) ∈ entries) :
    entries.filter (·.1 == key) = [(key, value)] := by
  obtain ⟨front, rest, rfl⟩ := List.append_of_mem h
  rw [List.map_append, List.map_cons, List.nodup_middle, List.nodup_cons, List.mem_append, not_or] at hnodup
  rw [List.filter_append, List.filter_cons_of_pos (by simp), filter_key_of_not_mem hnodup.1.1,
    filter_key_of_not_mem hnodup.1.2, List.nil_append]

end

/-- The entries of the options. -/
def optionEntries (config : AudioStreamConfig) : List (String × Json) :=
  config.providerOptions.asObject.getD []

def hintEntries (config : AudioStreamConfig) : List (String × Json) :=
  config.domainHint.toList.map fun domain => ("domain_hint", .str domain)

theorem optionEntries_nodup (config : AudioStreamConfig) : ((optionEntries config).map Prod.fst).Nodup := by
  cases hoptions : config.providerOptions with
  | obj map =>
    rw [optionEntries, hoptions]
    exact config.nodup map hoptions
  | null | bool | num | decimal | str | arr => simp [optionEntries, hoptions, Json.asObject]

/-- Going through a map in order, each entry is put at the end: its key is a new one. -/
theorem foldl_insert (map extra : List (String × Json)) (h : ((extra ++ map).map Prod.fst).Nodup) :
    map.foldl (fun extra entry =>
      if reservedOptionKeys.contains entry.1 then extra else Json.insert extra entry.1 entry.2) extra =
    extra ++ map.filter fun entry => !reservedOptionKeys.contains entry.1 := by
  induction map generalizing extra with
  | nil => simp
  | cons entry map ih =>
    rw [List.foldl_cons]
    by_cases hreserved : reservedOptionKeys.contains entry.1
    · have hsublist : ((extra ++ map).map Prod.fst).Sublist ((extra ++ entry :: map).map Prod.fst) :=
        ((List.sublist_cons_self entry map).append_left extra).map Prod.fst
      rw [if_pos hreserved, ih extra (h.sublist hsublist), List.filter_cons_of_neg (by simpa using hreserved)]
    · have hnew : entry.1 ∉ extra.map Prod.fst := by
        rw [List.map_append, List.map_cons, List.nodup_middle, List.nodup_cons, List.mem_append, not_or] at h
        exact h.1.1
      rw [if_neg hreserved, Json.insert_of_not_mem hnew, ih _ (by rwa [List.append_assoc]),
        List.filter_cons_of_pos (by simpa using hreserved), List.append_assoc, List.singleton_append]

theorem extraParams_eq (config : AudioStreamConfig) : extraParams config =
    (optionEntries config).filter (fun entry => !reservedOptionKeys.contains entry.1) ++ hintEntries config := by
  have hextra : optionParams config.providerOptions =
      (optionEntries config).filter fun entry => !reservedOptionKeys.contains entry.1 := by
    have hnodup := optionEntries_nodup config
    cases hoptions : config.providerOptions with
    | obj map =>
      rw [optionEntries, hoptions] at hnodup ⊢
      exact foldl_insert map [] hnodup
    | null | bool | num | decimal | str | arr => simp [optionEntries, optionParams, hoptions, Json.asObject]
  rw [extraParams, hextra, hintEntries]
  cases config.domainHint with
  | none => simp
  | some domain =>
    refine Json.insert_of_not_mem ?_
    simp [reservedOptionKeys]

theorem unlessEmpty_keys (key : String) (items : List String) :
    ((unlessEmpty key items).map Prod.fst).Sublist [key] := by
  unfold unlessEmpty
  split <;> simp

/-- Each field of the parameters has a reserved key, which the list of reserved keys has in the same order. -/
theorem named_keys (parameters : RunTaskParameters) :
    (parameters.named.map Prod.fst ++ ["domain_hint"]).Sublist reservedOptionKeys := by
  have hkeys : reservedOptionKeys = ["format", "sample_rate"] ++ ["vocabulary_id"] ++ ["language_hints"] ++
      ["disfluency_removal_enabled", "punctuation_prediction_enabled", "inverse_text_normalization_enabled"] ++
      ["domain_hint"] := rfl
  rw [hkeys, RunTaskParameters.named, List.map_append, List.map_append, List.map_append]
  exact ((((List.Sublist.refl _).append (unlessEmpty_keys _ _)).append (unlessEmpty_keys _ _)).append
    (List.Sublist.refl _)).append (List.Sublist.refl _)

/-- Options that pass: a reserved key that they have is one of the booleans, and its value is a boolean. -/
theorem validated_reserved {config : AudioStreamConfig} (h : validateProviderOptions config.providerOptions = .ok ())
    {key : String} {value : Json} (hmem : (key, value) ∈ optionEntries config) (hreserved : key ∈ reservedOptionKeys) :
    key ∈ boolOverrideKeys ∧ ∃ b, value = .bool b := by
  have hlookup := Json.lookup_eq_of_mem (optionEntries_nodup config) hmem
  cases hoptions : config.providerOptions with
  | obj map =>
    have hentries : optionEntries config = map := by simp [optionEntries, hoptions, Json.asObject]
    rw [hentries] at hmem hlookup
    rw [hoptions, validateProviderOptions] at h
    by_cases hoffending : offending map = []
    · rw [if_neg (not_not_intro hoffending)] at h
      have hkey : key ∈ boolOverrideKeys := by
        refine Decidable.byContradiction fun hnot => List.filter_eq_nil_iff.1 hoffending key hreserved ?_
        have hin : key ∈ map.map Prod.fst := List.mem_map.2 ⟨_, hmem, rfl⟩
        simp only [Bool.and_eq_true, Bool.not_eq_true', List.contains_eq_mem, decide_eq_false_iff_not,
          decide_eq_true_eq]
        exact ⟨hnot, hin⟩
      cases hnone : nonBoolean map with
      | some entry =>
        rw [hnone] at h
        cases h
      | none =>
        have hbool := List.findSome?_eq_none_iff.1 hnone key hkey
        rw [hlookup, Option.bind_some] at hbool
        refine ⟨hkey, ?_⟩
        cases value with
        | bool b => exact ⟨b, rfl⟩
        | null | num | decimal | str | arr | obj => simp [asBool] at hbool
    · rw [if_pos hoffending] at h
      cases h
  | null | bool | num | decimal | str | arr => simp [optionEntries, hoptions, Json.asObject] at hmem

theorem readBool_eq {config : AudioStreamConfig} {key : String} {b : Bool} (h : (key, .bool b) ∈ optionEntries config)
    (default : Bool) : readBool config.providerOptions key default = b := by
  have hlookup := Json.lookup_eq_of_mem (optionEntries_nodup config) h
  cases hoptions : config.providerOptions with
  | obj map =>
    rw [optionEntries, hoptions] at hlookup
    rw [readBool, Json.get, show map.lookup key = some (.bool b) from hlookup]
    rfl
  | null | bool | num | decimal | str | arr => simp [optionEntries, hoptions, Json.asObject] at h

section
variable (config : AudioStreamConfig) (taskId model format : String)

theorem serialize_eq : (buildRunTask taskId model config format).payload.parameters.serialize =
    (buildRunTask taskId model config format).payload.parameters.named ++
      ((optionEntries config).filter (fun entry => !reservedOptionKeys.contains entry.1) ++ hintEntries config) := by
  rw [RunTaskParameters.serialize, ← extraParams_eq]
  rfl

theorem hintEntries_keys : ((hintEntries config).map Prod.fst).Sublist ["domain_hint"] := by
  rw [hintEntries]
  cases config.domainHint <;> simp

/-- The fields and the domain hint have reserved keys, the options that are sent have others. -/
theorem keys_nodup : ((buildRunTask taskId model config format).payload.parameters.serialize.map Prod.fst).Nodup := by
  rw [serialize_eq, List.map_append, List.map_append]
  refine (List.perm_append_comm.append_left _).nodup_iff.2 ?_
  rw [← List.append_assoc]
  have hreserved := ((List.Sublist.refl _).append (hintEntries_keys config)).trans
    (named_keys (buildRunTask taskId model config format).payload.parameters)
  refine List.nodup_append.2 ⟨(by decide : reservedOptionKeys.Nodup).sublist hreserved, ?_, ?_⟩
  · exact (optionEntries_nodup config).sublist (List.filter_sublist.map Prod.fst)
  · rintro key hkey other hother rfl
    obtain ⟨entry, hentry, rfl⟩ := List.mem_map.1 hother
    have hnot := (List.mem_filter.1 hentry).2
    simp [hreserved.mem hkey] at hnot

/-- No option that is sent has the key of the domain hint. -/
theorem filter_domainHint : (buildRunTask taskId model config format).payload.parameters.serialize.filter
    (·.1 == "domain_hint") = hintEntries config := by
  cases hdomain : config.domainHint with
  | none =>
    have hnamed := named_keys (buildRunTask taskId model config format).payload.parameters
    have hfresh := List.disjoint_of_nodup_append ((by decide : reservedOptionKeys.Nodup).sublist hnamed)
    have hempty : hintEntries config = [] := by rw [hintEntries, hdomain]; rfl
    rw [hempty]
    refine filter_key_of_not_mem ?_
    rw [serialize_eq, hempty, List.append_nil, List.map_append, List.mem_append, not_or]
    refine ⟨fun hin => hfresh hin (List.mem_singleton_self _), fun hin => ?_⟩
    obtain ⟨entry, hentry, hkey⟩ := List.mem_map.1 hin
    have hnot := (List.mem_filter.1 hentry).2
    rw [hkey] at hnot
    exact absurd hnot (by decide)
  | some domain =>
    have hone : hintEntries config = [("domain_hint", .str domain)] := by rw [hintEntries, hdomain]; rfl
    rw [hone]
    refine filter_key_of_mem (keys_nodup config taskId model format) ?_
    rw [serialize_eq, hone]
    exact List.mem_append_right _ (List.mem_append_right _ (List.mem_singleton_self _))

end

/-- Each entry of accepted options is written as it is: among the options, or as the field of its key. -/
theorem mem_serialize {config : AudioStreamConfig} (taskId model format : String)
    (h : validateProviderOptions config.providerOptions = .ok ()) {key : String} {value : Json}
    (hmem : (key, value) ∈ optionEntries config) :
    (key, value) ∈ (buildRunTask taskId model config format).payload.parameters.serialize := by
  rw [serialize_eq]
  by_cases hreserved : key ∈ reservedOptionKeys
  · obtain ⟨hkey, b, rfl⟩ := validated_reserved h hmem hreserved
    refine List.mem_append_left _ ?_
    have hread := readBool_eq hmem
    simp only [boolOverrideKeys, List.mem_cons, List.not_mem_nil, or_false] at hkey
    rcases hkey with rfl | rfl | rfl
    all_goals simp [RunTaskParameters.named, buildRunTask, hread]
  · exact List.mem_append_right _ (List.mem_append_left _ (List.mem_filter.2 ⟨hmem, by simpa using hreserved⟩))

theorem validated_context {items : List String} (h : validateContextItems items = .ok ()) :
    ((items.map trim).filter (· != "")).length ≤ maxContextItems ∧
      ∀ s ∈ items.map trim, s.length ≤ maxContextItemChars := by
  have hcount : ((items.map trim).filter (· != "")).length = items.countP fun s => trim s != "" := by
    rw [← List.countP_eq_length_filter, List.countP_map]
    rfl
  rw [validateContextItems] at h
  by_cases hmany : items.countP (fun s => trim s != "") > maxContextItems
  · simp [hmany] at h
  · simp only [hmany, if_false] at h
    split at h
    · cases h
    · rename_i hnone
      refine ⟨by omega, fun s hs => ?_⟩
      obtain ⟨item, hitem, rfl⟩ := List.mem_map.1 hs
      have hshort := List.findIdx?_eq_none_iff.1 hnone item hitem
      simpa using hshort

/-- A context within the limits is sent whole. -/
theorem clampContext_of_validated {items : List String} (h : validateContextItems items = .ok ()) :
    (clampContext items).map ContextItem.text = (items.map trim).filter (· != "") := by
  obtain ⟨hcount, hshort⟩ := validated_context h
  rw [clampContext, Nat.sub_eq_zero_of_le hcount, List.drop_zero, List.map_map]
  refine (List.map_congr_left fun s hs => ?_).trans (List.map_id _)
  rw [Function.comp_apply, if_neg (Nat.not_lt.2 (hshort s (List.mem_filter.1 hs).1))]
  rfl

theorem clampContext_length_le (items : List String) : (clampContext items).length ≤ maxContextItems := by
  rw [clampContext, List.length_map, List.length_drop]
  omega

theorem clampContext_text_length_le {items : List String} {item : ContextItem} (h : item ∈ clampContext items) :
    item.text.length ≤ maxContextItemChars := by
  obtain ⟨s, -, rfl⟩ := List.mem_map.1 h
  by_cases hlong : s.length > maxContextItemChars
  · rw [if_pos hlong, String.length_ofList, List.length_take]
    omega
  · rw [if_neg hlong]
    exact Nat.not_lt.1 hlong

/-- What a payload has of a configuration: each option once and as it is, the domain hint if there is one, and the
trimmed items that are not blank. -/
structure Carries (payload : RunTaskPayload) (config : AudioStreamConfig) : Prop where
  options : ∀ key value, (key, value) ∈ optionEntries config →
    payload.parameters.serialize.filter (·.1 == key) = [(key, value)]
  domainHint : payload.parameters.serialize.filter (·.1 == "domain_hint") = hintEntries config
  context : payload.context.map ContextItem.text = (config.contextItems.map trim).filter (· != "")

/-- An accepted configuration is carried whole. In any case no key is written twice and the context is within the
limits. -/
theorem run_task_carries (taskId model format : String) (config : AudioStreamConfig) :
    (validateProviderOptions config.providerOptions = .ok () → validateContextItems config.contextItems = .ok () →
      Carries (buildRunTask taskId model config format).payload config) ∧
    ((buildRunTask taskId model config format).payload.parameters.serialize.map Prod.fst).Nodup ∧
    (buildRunTask taskId model config format).payload.context.length ≤ maxContextItems ∧
    ∀ item ∈ (buildRunTask taskId model config format).payload.context, item.text.length ≤ maxContextItemChars := by
  have hnodup := keys_nodup config taskId model format
  refine ⟨fun hoptions hcontext => ⟨fun key value hmem => ?_, ?_, clampContext_of_validated hcontext⟩, hnodup,
    clampContext_length_le config.contextItems, fun item => clampContext_text_length_le⟩
  · exact filter_key_of_mem hnodup (mem_serialize taskId model format hoptions hmem)
  · exact filter_domainHint config taskId model format

end FunAsr
end Fusions.Ai
