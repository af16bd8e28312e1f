import Mathlib.Algebra.Group.Int.Defs
import Mathlib.Algebra.Group.Nat.Defs
import Fusions.Hetuflow.Core.Json

/-! Token usage on the two OpenAI compatible wires: how the usage record of a response becomes counts. -/
namespace Fusions.Ai
open Fusions.Hetuflow

/-- `Value::as_u64`. -/
def asU64 : Json → Option UInt64
  | .num n => if 0 ≤ n ∧ n < 2 ^ 64 then some (UInt64.ofNat n.toNat) else none
  | _ => none

/-- `u32::try_from`. -/
def tryFromU64 (n : UInt64) : Option UInt32 :=
  if n.toNat < 2 ^ 32 then some n.toUInt32 else none

/-- `u64::saturating_sub`. -/
def saturatingSub (a b : UInt64) : UInt64 :=
  if a < b then 0 else a - b

def u32Max : UInt32 := 4294967295

/-- `llm::TokenUsage`, and `WireUsage`, which has the same fields. -/
structure TokenUsage where
  promptTokens : UInt32
  completionTokens : UInt32
  totalTokens : UInt32
  cachedInputTokens : UInt32
  deriving DecidableEq, Repr

/-- `core::Usage`. -/
structure CoreUsage where
  inputTokens : UInt64
  outputTokens : UInt64
  totalTokens : UInt64
  cachedInputTokens : UInt64
  cacheCreationInputTokens : UInt64
  deriving DecidableEq, Repr

/-- The cache hits of a usage record, in either dialect; the greater one if it has both. -/
def cacheHitInputTokens (usage : Json) : UInt64 :=
  let flat := ((usage.get "prompt_cache_hit_tokens").bind asU64).getD 0
  let nested := (((usage.get "prompt_tokens_details").bind (·.get "cached_tokens")).bind asU64).getD 0
  max flat nested

/-- A `usize` field that is 0 if it is missing; none is an error. -/
def usizeField (raw : List (String × Json)) (key : String) : Option UInt64 :=
  match raw.lookup key with
  | none => some 0
  | some value => asU64 value

/-- A `u32` field. -/
def u32Field (raw : List (String × Json)) (key : String) : Option UInt32 :=
  (usizeField raw key).bind tryFromU64

/-- `WireUsage::deserialize` and its `TokenUsage`: the counts of the Chat Completions wire. -/
def wireUsage (raw : List (String × Json)) : Option TokenUsage := do
  let promptTokens ← u32Field raw "prompt_tokens"
  let completionTokens ← u32Field raw "completion_tokens"
  let totalTokens ← u32Field raw "total_tokens"
  return ⟨promptTokens, completionTokens, totalTokens, (tryFromU64 (cacheHitInputTokens (.obj raw))).getD u32Max⟩

/-- `Usage` of the Chat Completions provider. -/
structure ChatUsage where
  promptTokens : UInt64
  completionTokens : UInt64
  totalTokens : UInt64
  cachedInputTokens : UInt64
  deriving DecidableEq, Repr

namespace ChatUsage

def deserialize (raw : List (String × Json)) : Option ChatUsage := do
  let promptTokens ← usizeField raw "prompt_tokens"
  let completionTokens ← usizeField raw "completion_tokens"
  let totalTokens ← usizeField raw "total_tokens"
  return ⟨promptTokens, completionTokens, totalTokens, cacheHitInputTokens (.obj raw)⟩

def usageTokens (usage : ChatUsage) : CoreUsage :=
  ⟨usage.promptTokens, saturatingSub usage.totalTokens usage.promptTokens, usage.totalTokens,
    usage.cachedInputTokens, 0⟩

/-- The usage at the end of a stream: that of the last chunk which has one. -/
def streamed (chunks : List (Option ChatUsage)) : ChatUsage :=
  chunks.foldl (fun final usage => usage.getD final) ⟨0, 0, 0, 0⟩

end ChatUsage

/-- `ResponsesUsage`, with the count of its `input_tokens_details`. -/
structure ResponsesUsage where
  inputTokens : UInt64
  cachedTokens : Option UInt64
  outputTokens : UInt64
  reasoningTokens : UInt64
  totalTokens : UInt64
  deriving DecidableEq, Repr

/-- An event of a Responses stream, as far as the usage goes. -/
inductive ResponsesEvent where
  | completed (usage : Option ResponsesUsage)
  | failed
  | other

namespace ResponsesUsage

/-- The counts that `responses_to_chat` takes: `as u32`. -/
def tokenUsage (usage : ResponsesUsage) : TokenUsage :=
  ⟨usage.inputTokens.toUInt32, usage.outputTokens.toUInt32, usage.totalTokens.toUInt32,
    (usage.cachedTokens.map UInt64.toUInt32).getD 0⟩

def usageTokens (usage : ResponsesUsage) : CoreUsage :=
  ⟨usage.inputTokens, usage.outputTokens, usage.totalTokens, usage.cachedTokens.getD 0, 0⟩

/-- The usage at the end of a stream: that of the completed response, which ends it. -/
def streamed : List ResponsesEvent → ResponsesUsage
  | [] | .failed :: _ => ⟨0, some 0, 0, 0, 0⟩
  | .completed usage :: _ => usage.getD ⟨0, some 0, 0, 0, 0⟩
  | .other :: events => streamed events

end ResponsesUsage

/-- What a provider counted. -/
structure TokenCounts where
  input : UInt64
  output : UInt64
  total : UInt64
  cached : UInt64
  deriving DecidableEq, Repr

namespace TokenCounts
variable (counts : TokenCounts)

/-- A Chat Completions record with these counts, in either dialect. -/
structure OfChat (raw : List (String × Json)) : Prop where
  input : usizeField raw "prompt_tokens" = some counts.input
  output : usizeField raw "completion_tokens" = some counts.output
  total : usizeField raw "total_tokens" = some counts.total
  cached : cacheHitInputTokens (.obj raw) = counts.cached

/-- A Responses record with these counts. -/
structure OfResponses (usage : ResponsesUsage) : Prop where
  input : usage.inputTokens = counts.input
  output : usage.outputTokens = counts.output
  total : usage.totalTokens = counts.total
  cached : usage.cachedTokens.getD 0 = counts.cached

/-- Each count, or `u32::MAX` for one that does not fit. -/
def saturated : TokenUsage :=
  ⟨(tryFromU64 counts.input).getD u32Max, (tryFromU64 counts.output).getD u32Max,
    (tryFromU64 counts.total).getD u32Max, (tryFromU64 counts.cached).getD u32Max⟩

/-- The counts that both wires convert alike: they fit, but for a cached count that wraps to `u32::MAX`, and the output
is what the total has over the input. -/
structure Convertible : Prop where
  input : counts.input.toNat < 2 ^ 32
  output : counts.output.toNat < 2 ^ 32
  total : counts.total.toNat < 2 ^ 32
  cached : counts.cached.toNat < 2 ^ 32 ∨ counts.cached.toNat % 2 ^ 32 = 2 ^ 32 - 1
  derived : counts.output = saturatingSub counts.total counts.input

variable {counts} {raw : List (String × Json)} {usage : ResponsesUsage}

theorem tryFromU64_of_lt {n : UInt64} (h : n.toNat < 2 ^ 32) : tryFromU64 n = some n.toUInt32 := if_pos h

theorem tryFromU64_of_not_lt {n : UInt64} (h : ¬ n.toNat < 2 ^ 32) : tryFromU64 n = none := if_neg h

/-- Truncating is saturating for what fits, and for what wraps to the maximum. -/
theorem toUInt32_eq_saturated_iff (n : UInt64) :
    n.toUInt32 = (tryFromU64 n).getD u32Max ↔ n.toNat < 2 ^ 32 ∨ n.toNat % 2 ^ 32 = 2 ^ 32 - 1 := by
  by_cases hfits : n.toNat < 2 ^ 32
  · simp only [tryFromU64_of_lt hfits, Option.getD_some, hfits, true_or]
  · simp only [tryFromU64_of_not_lt hfits, hfits, Option.getD_none, false_or]
    rw [← UInt32.toNat_inj, UInt64.toNat_toUInt32]
    rfl

theorem wireUsage_eq (h : counts.OfChat raw) : wireUsage raw = some counts.saturated ↔
    counts.input.toNat < 2 ^ 32 ∧ counts.output.toNat < 2 ^ 32 ∧ counts.total.toNat < 2 ^ 32 := by
  simp only [wireUsage, u32Field, h.input, h.output, h.total, h.cached, Option.bind_eq_bind, Option.bind_some]
  by_cases hinput : counts.input.toNat < 2 ^ 32
  · by_cases houtput : counts.output.toNat < 2 ^ 32
    · by_cases htotal : counts.total.toNat < 2 ^ 32
      · simp only [saturated, tryFromU64_of_lt hinput, tryFromU64_of_lt houtput, tryFromU64_of_lt htotal, hinput, houtput,
          htotal, Option.bind_some, Option.getD_some, Option.pure_def, and_self]
      · simp only [tryFromU64_of_lt hinput, tryFromU64_of_lt houtput, tryFromU64_of_not_lt htotal, htotal,
          Option.bind_some, Option.bind_none, reduceCtorEq, and_false]
    · simp only [tryFromU64_of_lt hinput, tryFromU64_of_not_lt houtput, houtput, Option.bind_some, Option.bind_none,
        reduceCtorEq, false_and, and_false]
  · simp only [tryFromU64_of_not_lt hinput, hinput, Option.bind_none, reduceCtorEq, false_and]

theorem tokenUsage_eq (h : counts.OfResponses usage) : usage.tokenUsage = counts.saturated ↔
    counts.input.toUInt32 = (tryFromU64 counts.input).getD u32Max ∧
    counts.output.toUInt32 = (tryFromU64 counts.output).getD u32Max ∧
    counts.total.toUInt32 = (tryFromU64 counts.total).getD u32Max ∧
    counts.cached.toUInt32 = (tryFromU64 counts.cached).getD u32Max := by
  have hcached : (usage.cachedTokens.map UInt64.toUInt32).getD 0 = counts.cached.toUInt32 := by
    rw [← h.cached]
    cases usage.cachedTokens <;> rfl
  rw [ResponsesUsage.tokenUsage, saturated, h.input, h.output, h.total, hcached, TokenUsage.mk.injEq]

theorem deserialize_eq (h : counts.OfChat raw) :
    ChatUsage.deserialize raw = some ⟨counts.input, counts.output, counts.total, counts.cached⟩ := by
  simp [ChatUsage.deserialize, h.input, h.output, h.total, h.cached]

theorem streamed_chat (before : List (Option ChatUsage)) {after : List (Option ChatUsage)} (last : ChatUsage)
    (hafter : ∀ chunk ∈ after, chunk = none) : ChatUsage.streamed (before ++ some last :: after) = last := by
  rw [ChatUsage.streamed, List.foldl_append, List.foldl_cons, Option.getD_some]
  induction after with
  | nil => rfl
  | cons chunk after ih =>
    obtain ⟨rfl, hrest⟩ := List.forall_mem_cons.1 hafter
    exact ih hrest

theorem streamed_responses {before : List ResponsesEvent} (after : List ResponsesEvent) (usage : ResponsesUsage)
    (hbefore : ∀ event ∈ before, event = .other) :
    ResponsesUsage.streamed (before ++ .completed (some usage) :: after) = usage := by
  induction before with
  | nil => rfl
  | cons event before ih =>
    obtain ⟨rfl, hrest⟩ := List.forall_mem_cons.1 hbefore
    exact ih hrest

/-- What fits is taken as it is, so that a sum of the provider's is one of the result's. -/
theorem sum_le (hchat : counts.OfChat raw) (hresponses : counts.OfResponses usage)
    (hsum : counts.input.toNat + counts.output.toNat ≤ counts.total.toNat) (hfits : counts.total.toNat < 2 ^ 32)
    {result : TokenUsage} (h : wireUsage raw = some result ∨ usage.tokenUsage = result) :
    result.promptTokens.toNat + result.completionTokens.toNat ≤ result.totalTokens.toNat := by
  have hinput : counts.input.toNat < 2 ^ 32 := by omega
  have houtput : counts.output.toNat < 2 ^ 32 := by omega
  have hcounts : result.promptTokens = counts.input.toUInt32 ∧ result.completionTokens = counts.output.toUInt32 ∧
      result.totalTokens = counts.total.toUInt32 := by
    rcases h with h | rfl
    · have hsome := (wireUsage_eq hchat).2 ⟨hinput, houtput, hfits⟩
      obtain rfl := Option.some.inj (hsome.symm.trans h)
      simp only [saturated, tryFromU64_of_lt hinput, tryFromU64_of_lt houtput, tryFromU64_of_lt hfits, Option.getD_some,
        and_self]
    · exact ⟨congrArg UInt64.toUInt32 hresponses.input, congrArg UInt64.toUInt32 hresponses.output,
        congrArg UInt64.toUInt32 hresponses.total⟩
  obtain ⟨hprompt, hcompletion, htotal⟩ := hcounts
  rw [hprompt, hcompletion, htotal, UInt64.toNat_toUInt32, UInt64.toNat_toUInt32, UInt64.toNat_toUInt32,
    Nat.mod_eq_of_lt hinput, Nat.mod_eq_of_lt houtput, Nat.mod_eq_of_lt hfits]
  exact hsum

/-- Records with the same counts become the same usage on both wires, streamed or not, with every count saturated,
exactly for the counts that are convertible. The Chat Completions wire refuses a record with a count that does not fit, the
Responses wire truncates it, and the two derive the output apart. -/
theorem same_usage_iff (hchat : counts.OfChat raw) (hresponses : counts.OfResponses usage) :
    (wireUsage raw = some counts.saturated ∧ usage.tokenUsage = counts.saturated ∧
      (counts.input.toNat + counts.output.toNat ≤ counts.total.toNat → counts.total.toNat < 2 ^ 32 →
        ∀ result, wireUsage raw = some result ∨ usage.tokenUsage = result →
          result.promptTokens.toNat + result.completionTokens.toNat ≤ result.totalTokens.toNat) ∧
      (ChatUsage.deserialize raw).map ChatUsage.usageTokens = some usage.usageTokens ∧
      (∀ before after last, ChatUsage.deserialize raw = some last → (∀ chunk ∈ after, chunk = none) →
        (ChatUsage.streamed (before ++ some last :: after)).usageTokens = usage.usageTokens) ∧
      (∀ before after, (∀ event ∈ before, event = .other) →
        (ResponsesUsage.streamed (before ++ .completed (some usage) :: after)).usageTokens = usage.usageTokens)) ↔
    counts.Convertible := by
  have hcore : ChatUsage.usageTokens ⟨counts.input, counts.output, counts.total, counts.cached⟩ = usage.usageTokens ↔
      counts.output = saturatingSub counts.total counts.input := by
    rw [ChatUsage.usageTokens, ResponsesUsage.usageTokens, hresponses.input, hresponses.output, hresponses.total,
      hresponses.cached, CoreUsage.mk.injEq]
    simp [eq_comm]
  rw [wireUsage_eq hchat, tokenUsage_eq hresponses, deserialize_eq hchat, Option.map_some, Option.some.injEq, hcore,
    toUInt32_eq_saturated_iff counts.cached]
  constructor
  · rintro ⟨⟨hinput, houtput, htotal⟩, ⟨-, -, -, hcached⟩, -, hderived, -, -⟩
    exact ⟨hinput, houtput, htotal, hcached, hderived⟩
  · rintro ⟨hinput, houtput, htotal, hcached, hderived⟩
    refine ⟨⟨hinput, houtput, htotal⟩, ⟨?_, ?_, ?_, hcached⟩, ?_, hderived, ?_, ?_⟩
    · exact (toUInt32_eq_saturated_iff _).2 (.inl hinput)
    · exact (toUInt32_eq_saturated_iff _).2 (.inl houtput)
    · exact (toUInt32_eq_saturated_iff _).2 (.inl htotal)
    · exact fun hsum hfits result h => sum_le hchat hresponses hsum hfits h
    · rintro before after last hlast hafter
      obtain rfl := Option.some.inj hlast
      rw [streamed_chat before _ hafter]
      exact hcore.2 hderived
    · intro before after hbefore
      rw [streamed_responses after usage hbefore]

/-- A Chat Completions record with the three counts of its tokens. -/
def chatRecord (counts : TokenCounts) : List (String × Json) :=
  [("prompt_tokens", .num counts.input.toNat), ("completion_tokens", .num counts.output.toNat),
    ("total_tokens", .num counts.total.toNat),
    ("prompt_tokens_details", .obj [("cached_tokens", .num counts.cached.toNat)])]

def responsesRecord (counts : TokenCounts) : ResponsesUsage :=
  ⟨counts.input, some counts.cached, counts.output, 0, counts.total⟩

theorem same_usage_of_thirty_tokens :
    ChatUsage.deserialize (chatRecord ⟨20, 10, 30, 5⟩) = some ⟨20, 10, 30, 5⟩ ∧
      Convertible ⟨20, 10, 30, 5⟩ ∧ wireUsage (chatRecord ⟨20, 10, 30, 5⟩) = some (saturated ⟨20, 10, 30, 5⟩) := by
  have hconvertible : Convertible ⟨20, 10, 30, 5⟩ := ⟨by decide, by decide, by decide, .inl (by decide), by decide⟩
  have hchat : OfChat ⟨20, 10, 30, 5⟩ (chatRecord ⟨20, 10, 30, 5⟩) := ⟨by decide, by decide, by decide, by decide⟩
  have hresponses : OfResponses ⟨20, 10, 30, 5⟩ (responsesRecord ⟨20, 10, 30, 5⟩) := ⟨rfl, rfl, rfl, rfl⟩
  exact ⟨by decide, hconvertible, ((same_usage_iff hchat hresponses).2 hconvertible).1⟩

/-- A prompt of 2^32 tokens counts as none on the Responses wire, and is refused on the other. -/
theorem long_prompt_wraps :
    OfChat ⟨4294967296, 1, 4294967297, 0⟩ (chatRecord ⟨4294967296, 1, 4294967297, 0⟩) ∧
      OfResponses ⟨4294967296, 1, 4294967297, 0⟩ (responsesRecord ⟨4294967296, 1, 4294967297, 0⟩) ∧
      saturated ⟨4294967296, 1, 4294967297, 0⟩ = ⟨u32Max, 1, u32Max, 0⟩ ∧
      (responsesRecord ⟨4294967296, 1, 4294967297, 0⟩).tokenUsage = ⟨0, 1, 1, 0⟩ ∧
      wireUsage (chatRecord ⟨4294967296, 1, 4294967297, 0⟩) = none := by
  exact ⟨⟨by decide, by decide, by decide, by decide⟩, ⟨rfl, rfl, rfl, rfl⟩, by decide, by decide, by decide⟩

end TokenCounts
end Fusions.Ai
