import Fusions.Security.Acs3.SignRequest

/-! When a signed ACS3 request verifies for the credential that signed it. -/
namespace Fusions.Security.Acs3
open Fusions.Library Fusions.Rpc

namespace Signing
variable {α β : Type}

theorem runOn_bind (step : Signing α) (next : α → Signing β) (headers : Headers) :
    (step >>= next).runOn headers = match step.runOn headers with
      | (.ok a, headers) => (next a).runOn headers
      | (.error e, headers) => (.error e, headers) := by
  change (match step headers with
    | (result, headers) => ExceptT.bindCont next result headers) = _
  rw [runOn]
  cases h : step headers with
  | mk result headers' =>
    cases result with
    | ok a => rfl
    | error e => rfl

/-- What a step gives and leaves when it succeeds. -/
def done (step : Signing α) (headers : Headers) : Option (α × Headers) :=
  match step.runOn headers with
  | (.ok a, headers) => some (a, headers)
  | (.error _, _) => none

theorem done_bind (step : Signing α) (next : α → Signing β) (headers : Headers) :
    (step >>= next).done headers = (step.done headers).bind fun left => (next left.1).done left.2 := by
  rw [done, runOn_bind, done]
  cases h : step.runOn headers with
  | mk result headers' => cases result <;> rfl

/-- The headers of this name stay as they are, also when the step fails. -/
def Keeps (name : HeaderName) (step : Signing α) : Prop :=
  ∀ headers, (step.runOn headers).2.values name = headers.values name

theorem Keeps.bind {name : HeaderName} {step : Signing α} {next : α → Signing β} (hstep : Keeps name step)
    (hnext : ∀ a, Keeps name (next a)) : Keeps name (step >>= next) := by
  intro headers
  rw [runOn_bind, ← hstep headers]
  cases h : step.runOn headers with
  | mk result headers' =>
    cases result with
    | ok a => exact hnext a headers'
    | error e => rfl

/-- A failing step leaves the headers of this name as they are. -/
def KeepsOnError (name : HeaderName) (step : Signing α) : Prop :=
  ∀ headers, (step.runOn headers).1.isOk = false → (step.runOn headers).2.values name = headers.values name

theorem Keeps.bindOnError {name : HeaderName} {step : Signing α} {next : α → Signing β} (hstep : Keeps name step)
    (hnext : ∀ a, KeepsOnError name (next a)) : KeepsOnError name (step >>= next) := by
  intro headers
  rw [runOn_bind, ← hstep headers]
  cases h : step.runOn headers with
  | mk result headers' =>
    cases result with
    | ok a => exact hnext a headers'
    | error e => exact fun _ => rfl

theorem keeps_get (name : HeaderName) : Keeps name (get : Signing Headers) := fun _ => rfl

theorem keeps_pure (name : HeaderName) (a : α) : Keeps name (pure a : Signing α) := fun _ => rfl

theorem keeps_throw (name : HeaderName) (e : SignError) : Keeps name (throw e : Signing α) := fun _ => rfl

end Signing

open Signing

theorem done_get (headers : Headers) : (get : Signing Headers).done headers = some (headers, headers) := rfl

theorem runOn_insertHeader (context : String) (name : HeaderName) (value : String) (headers : Headers) :
    (insertHeader context name value).runOn headers = match HeaderValue.parse value with
      | some value => (.ok (), headers.insert name value)
      | none => (.error (.requestInvalid (context ++ invalidHeaderValue)), headers) := by
  unfold insertHeader
  cases HeaderValue.parse value <;> rfl

theorem done_insertHeader (context : String) (name : HeaderName) (value : String) (headers : Headers) :
    (insertHeader context name value).done headers =
      (HeaderValue.parse value).map fun value => ((), headers.insert name value) := by
  rw [done, runOn_insertHeader]
  cases HeaderValue.parse value <;> rfl

theorem keeps_insertHeader {context : String} {name n : HeaderName} {value : String} (hn : n ≠ name) :
    Keeps n (insertHeader context name value) := by
  intro headers
  rw [runOn_insertHeader]
  cases HeaderValue.parse value with
  | none => rfl
  | some value => rw [Headers.values_insert, if_neg hn]

/-! The headers that steps write, in the order of the steps. -/

abbrev Writes := List (HeaderName × String)

def writeAll : Writes → Headers → Option Headers
  | [], headers => some headers
  | write :: writes, headers => (HeaderValue.parse write.2).bind fun value => writeAll writes (headers.insert write.1 value)

theorem writeAll_append (writes writes' : Writes) (headers : Headers) :
    writeAll (writes ++ writes') headers = (writeAll writes headers).bind (writeAll writes') := by
  induction writes generalizing headers with
  | nil => rfl
  | cons write writes ih =>
    rw [List.cons_append, writeAll, writeAll, Option.bind_assoc]
    exact congrArg _ (funext fun value => ih _)

theorem writeAll_isSome {writes : Writes} {headers : Headers} :
    (writeAll writes headers).isSome = true ↔ ∀ write ∈ writes, Plain write.2 := by
  induction writes generalizing headers with
  | nil => simp [writeAll]
  | cons write writes ih =>
    rw [writeAll, List.forall_mem_cons, ← parse_isSome]
    cases HeaderValue.parse write.2 with
    | none => simp
    | some value => simp [ih]

theorem values_writeAll {writes : Writes} {headers headers' : Headers} (h : writeAll writes headers = some headers')
    {name : HeaderName} (hname : name ∉ writes.map Prod.fst) : headers'.values name = headers.values name := by
  induction writes generalizing headers with
  | nil => rw [Option.some.inj h]
  | cons write writes ih =>
    rw [List.map_cons, List.mem_cons, not_or] at hname
    obtain ⟨value, -, hrest⟩ := Option.bind_eq_some_iff.1 h
    rw [ih hrest hname.2, Headers.values_insert, if_neg hname.1]

/-- Each name is written once. -/
theorem values_written {writes : Writes} {headers headers' : Headers} (h : writeAll writes headers = some headers')
    (hnodup : (writes.map Prod.fst).Nodup) {name : HeaderName} {text : String} (hwrite : (name, text) ∈ writes) :
    headers'.values name = (HeaderValue.parse text).toList := by
  induction writes generalizing headers with
  | nil => cases hwrite
  | cons write writes ih =>
    rw [List.map_cons, List.nodup_cons] at hnodup
    obtain ⟨value, hvalue, hrest⟩ := Option.bind_eq_some_iff.1 h
    rcases List.mem_cons.1 hwrite with hhead | htail
    · obtain rfl := hhead
      rw [values_writeAll hrest hnodup.1, Headers.values_insert, if_pos rfl, hvalue]
      rfl
    · exact ih hrest hnodup.2 htail

/-- A step that writes headers of these names alone, and looks at no others. -/
structure Fills (names : List HeaderName) (step : Signing Unit) (writes : Headers → Writes) : Prop where
  done : ∀ headers, step.done headers = (writeAll (writes headers) headers).map ((), ·)
  within : ∀ headers, ((writes headers).map Prod.fst).Sublist names
  reads : ∀ headers headers', (∀ name ∈ names, headers'.values name = headers.values name) →
    writes headers' = writes headers
  keeps : ∀ name, name ∉ names → Keeps name step

theorem Fills.bind {names names' : List HeaderName} {step next : Signing Unit} {writes writes' : Headers → Writes}
    (hstep : Fills names step writes) (hnext : Fills names' next writes') (hdisjoint : ∀ name ∈ names', name ∉ names) :
    Fills (names ++ names') (step >>= fun _ => next) (fun headers => writes headers ++ writes' headers) := by
  refine ⟨fun headers => ?_, fun headers => ?_, fun headers headers' hsame => ?_, fun name hname => ?_⟩
  · rw [done_bind, hstep.done, writeAll_append]
    cases hwrite : writeAll (writes headers) headers with
    | none => rfl
    | some headers' =>
      have hsame : writes' headers' = writes' headers := hnext.reads headers headers' fun name hname =>
        values_writeAll hwrite fun hmem => hdisjoint name hname ((hstep.within headers).subset hmem)
      simp only [Option.map_some, Option.bind_some]
      rw [hnext.done, hsame]
  · rw [List.map_append]
    exact (hstep.within headers).append (hnext.within headers)
  · rw [hstep.reads headers headers' fun name hname => hsame name (List.mem_append_left _ hname),
      hnext.reads headers headers' fun name hname => hsame name (List.mem_append_right _ hname)]
  · rw [List.mem_append, not_or] at hname
    exact (hstep.keeps name hname.1).bind fun _ => hnext.keeps name hname.2

/-- The text of a header that the request does not have. -/
def missing (headers : Headers) (name : HeaderName) (text : Option String) : Writes :=
  if (headers.values name).isEmpty then text.toList.map (name, ·) else []

theorem missing_names (headers : Headers) (name : HeaderName) (text : Option String) :
    ((missing headers name text).map Prod.fst).Sublist [name] := by
  unfold missing
  split
  · cases text <;> simp
  · simp

theorem missing_reads {headers headers' : Headers} {name : HeaderName} {text : Option String}
    (h : ∀ n ∈ [name], headers'.values n = headers.values n) : missing headers' name text = missing headers name text := by
  rw [missing, missing, h name (List.mem_singleton_self _)]

theorem mem_missing {headers : Headers} {name n : HeaderName} {text : Option String} {value : String} :
    (n, value) ∈ missing headers name text ↔ n = name ∧ headers.values name = [] ∧ text = some value := by
  unfold missing
  rcases hvalues : headers.values name with - | ⟨v, values⟩
  · cases text <;> simp [eq_comm]
  · simp

/-- A header that is written where it is missing. -/
theorem fills_missing (context : String) (name : HeaderName) (text : String) :
    Fills [name] (do if ((← get).values name).isEmpty then insertHeader context name text) fun headers =>
      missing headers name (some text) := by
  refine ⟨fun headers => ?_, fun headers => missing_names headers name _, fun _ _ => missing_reads, fun n hn => ?_⟩
  · rw [done_bind, done_get, Option.bind_some]
    unfold missing
    split
    · rw [done_insertHeader]
      cases h : HeaderValue.parse text <;> simp [writeAll, h]
    · rfl
  · refine (keeps_get n).bind fun headers => ?_
    split
    · exact keeps_insertHeader fun heq => hn (List.mem_singleton.2 heq)
    · exact keeps_pure n ()

theorem missing_none (headers : Headers) (name : HeaderName) : missing headers name none = [] := by
  simp [missing]

theorem fills_nothing (name : HeaderName) : Fills [name] (pure ()) fun headers => missing headers name none :=
  ⟨fun headers => by rw [missing_none]; rfl, fun headers => missing_names headers name _, fun _ _ => missing_reads,
    fun n _ => keeps_pure n ()⟩

theorem fills_insertHost (uri : Uri) :
    Fills [host] (RequestSigner.insertHost uri) fun headers => missing headers host uri.host := by
  unfold RequestSigner.insertHost
  cases uri.host with
  | none =>
    have hnothing : (do if ((← get).values host).isEmpty then pure () : Signing Unit) = pure () :=
      funext fun headers => by
        change (if (headers.values host).isEmpty then pure () else pure () : Signing Unit) headers = _
        rw [ite_self]
    have hfills : Fills [host] (do if ((← get).values host).isEmpty then pure () : Signing Unit)
        fun headers => missing headers host none := by
      rw [hnothing]
      exact fills_nothing host
    exact hfills
  | some authority => exact fills_missing _ host authority

theorem fills_insertToken (cred : Credential) :
    Fills [xAcsSecurityToken] (RequestSigner.insertToken cred) fun headers =>
      missing headers xAcsSecurityToken cred.securityToken := by
  unfold RequestSigner.insertToken
  cases cred.securityToken with
  | none => exact fills_nothing xAcsSecurityToken
  | some token => exact fills_missing _ xAcsSecurityToken token

section
variable {DateTime : Type} (platform : Platform DateTime) (signer : RequestSigner DateTime) (now : DateTime)
  (uuid : String) (cred : Credential) (uri : Uri)

/-- The payload hash that is sent. -/
def payloadWrite (headers : Headers) (payloadHash : String) : Writes :=
  if signer.payloadHash.isSome then [(xAcsContentSha256, payloadHash)]
  else missing headers xAcsContentSha256 (some payloadHash)

theorem fills_insertPayloadHash (payloadHash : String) :
    Fills [xAcsContentSha256] (signer.insertPayloadHash payloadHash) fun headers =>
      payloadWrite signer headers payloadHash := by
  unfold RequestSigner.insertPayloadHash payloadWrite
  split
  · refine ⟨fun headers => ?_, fun _ => List.Sublist.refl _, fun _ _ _ => rfl, fun n hn => ?_⟩
    · rw [done_insertHeader]
      cases h : HeaderValue.parse payloadHash <;> simp [writeAll, h]
    · exact keeps_insertHeader fun heq => hn (List.mem_singleton.2 heq)
  · exact fills_missing _ xAcsContentSha256 payloadHash

/-- What the signer writes before it signs. -/
def writes (headers : Headers) (payloadHash : String) : Writes :=
  missing headers host uri.host ++ (missing headers xAcsDate (some (platform.format (signer.signingTime.getD now))) ++
    (missing headers xAcsSignatureNonce (some (signer.signatureNonce.getD uuid)) ++
      (payloadWrite signer headers payloadHash ++ missing headers xAcsSecurityToken cred.securityToken)))

def written : List HeaderName := [host, xAcsDate, xAcsSignatureNonce, xAcsContentSha256, xAcsSecurityToken]

theorem fills_fillHeaders (payloadHash : String) :
    Fills written (signer.fillHeaders platform now uuid cred uri payloadHash) fun headers =>
      writes platform signer now uuid cred uri headers payloadHash := by
  have htoken := (fills_insertPayloadHash signer payloadHash).bind (fills_insertToken cred) (by decide +kernel)
  have hnonce := (fills_missing ("header " ++ xAcsSignatureNonce.name ++ " value invalid: ") xAcsSignatureNonce
    (signer.signatureNonce.getD uuid)).bind htoken (by decide +kernel)
  have hdate := (fills_missing ("header " ++ xAcsDate.name ++ " value invalid: ") xAcsDate
    (platform.format (signer.signingTime.getD now))).bind hnonce (by decide +kernel)
  exact (fills_insertHost uri).bind hdate (by decide +kernel)

/-- The payload hash as the request has it. -/
def hashText (headers : Headers) : Option String :=
  match signer.payloadHash with
  | some hash => some hash
  | none =>
    match (headers.values xAcsContentSha256).head? with
    | some value => value.toStr
    | none => some (platform.hexSha256 [])

theorem done_payloadHashOf (headers : Headers) :
    (signer.payloadHashOf platform).done headers = (hashText platform signer headers).map (·, headers) := by
  unfold RequestSigner.payloadHashOf hashText
  cases signer.payloadHash with
  | some hash => rfl
  | none =>
    rw [done_bind, done_get, Option.bind_some]
    cases (headers.values xAcsContentSha256).head? with
    | none => rfl
    | some value =>
      dsimp only
      cases value.toStr <;> rfl

theorem keeps_payloadHashOf (name : HeaderName) : Keeps name (signer.payloadHashOf platform) := by
  unfold RequestSigner.payloadHashOf
  cases signer.payloadHash with
  | some hash => exact keeps_pure name hash
  | none =>
    refine (keeps_get name).bind fun headers => ?_
    cases (headers.values xAcsContentSha256).head? with
    | none => exact keeps_pure name _
    | some value =>
      dsimp only
      cases value.toStr with
      | none => exact keeps_throw name _
      | some hash => exact keeps_pure name hash

/-! The headers that are signed. -/

theorem headerPair_isOk {entry : HeaderName × HeaderValue} :
    (∃ pair, headerPair entry = .ok pair) ↔ entry.2.toStr.isSome = true := by
  unfold headerPair
  cases entry.2.toStr <;> simp

theorem mapM_isOk {entries : Headers} :
    (∃ pairs, entries.mapM headerPair = .ok pairs) ↔ ∀ entry ∈ entries, entry.2.toStr.isSome = true := by
  induction entries with
  | nil => simp [pure, Except.pure]
  | cons entry entries ih =>
    rw [List.mapM_cons, List.forall_mem_cons, ← ih, ← headerPair_isOk]
    cases headerPair entry with
    | error e => simp [bind, Except.bind]
    | ok pair => cases entries.mapM headerPair <;> simp [bind, Except.bind, pure, Except.pure]

theorem signed_filter (headers : Headers) :
    (headers.filter fun entry => entry.1.name.map Char.toLower != "authorization") =
      headers.filter fun entry => entry.1 != authorization := by
  refine List.filter_congr fun entry _ => ?_
  rw [lower_name]
  by_cases hname : entry.1 = authorization
  · rw [hname]
    rfl
  · have hne : entry.1.name ≠ "authorization" := fun heq => hname (by
      obtain ⟨⟨name, hvalid⟩, value⟩ := entry
      obtain rfl : name = "authorization" := heq
      rfl)
    rw [bne_iff_ne.2 hname, bne_iff_ne.2 hne]

theorem headerPairs_eq (headers : Headers) : headerPairs headers =
    ((headers.filter fun entry => entry.1 != authorization).mapM headerPair).map
      (List.mergeSort · fun a b => a.1 ≤ b.1) := by
  rw [headerPairs, signed_filter]
  cases (headers.filter fun entry => entry.1 != authorization).mapM headerPair <;> rfl

theorem headerPairs_isOk {headers : Headers} : (∃ pairs, headerPairs headers = .ok pairs) ↔
    ∀ name, name ≠ authorization → ∀ value ∈ headers.values name, value.toStr.isSome = true := by
  have hentries : (∀ entry ∈ headers.filter fun entry => entry.1 != authorization, entry.2.toStr.isSome = true) ↔
      ∀ name, name ≠ authorization → ∀ value ∈ headers.values name, value.toStr.isSome = true := by
    simp only [List.mem_filter, bne_iff_ne, Headers.mem_values, Prod.forall]
    exact ⟨fun h name hname value hmem => h name value ⟨hmem, hname⟩,
      fun h name value hmem => h name hmem.2 value hmem.1⟩
  rw [headerPairs_eq, ← hentries, ← mapM_isOk]
  cases (headers.filter fun entry => entry.1 != authorization).mapM headerPair <;> simp [Except.map]

theorem filter_insert (headers : Headers) (name : HeaderName) (value : HeaderValue) :
    (headers.insert name value).filter (fun entry => entry.1 != name) =
      headers.filter fun entry => entry.1 != name := by
  induction headers with
  | nil => simp [Headers.insert]
  | cons entry headers ih =>
    rw [Headers.insert]
    by_cases hname : entry.1 = name
    · simp [hname]
    · rw [if_neg hname, List.filter_cons, List.filter_cons, ih]

theorem headerPairs_insert (headers : Headers) (value : HeaderValue) :
    headerPairs (headers.insert authorization value) = headerPairs headers := by
  rw [headerPairs_eq, headerPairs_eq, filter_insert]

/-! Signing as a whole. -/

/-- The authorization that the headers call for. -/
def authorizationText (method path payloadHash : String) (pairs : List (String × String)) : String :=
  (signAcs3 platform cred.accessKeyId cred.accessKeySecret method path (canonicalizeQuery (uri.query.getD ""))
    (canonicalHeaders pairs) (signedHeaders pairs) payloadHash).2.2

theorem runOn_liftExcept {α : Type} (result : Except SignError α) (headers : Headers) :
    (liftExcept result : Signing α).runOn headers = (result, headers) := by
  cases result <;> rfl

theorem runOn_authorize {path : String} (hpath : canonicalizeUri uri.path = some path) (method payloadHash : String)
    (headers : Headers) :
    (RequestSigner.authorize platform cred method uri payloadHash).runOn headers = match headerPairs headers with
      | .ok pairs => (insertHeader "Authorization header invalid: " authorization
          (authorizationText platform cred uri method path payloadHash pairs)).runOn headers
      | .error e => (.error e, headers) := by
  rw [RequestSigner.authorize, hpath]
  dsimp only
  rw [runOn_bind]
  change (match ((liftExcept (headerPairs headers) : Signing _) >>= _).runOn headers with | r => r) = _
  rw [runOn_bind, runOn_liftExcept]
  cases headerPairs headers <;> rfl

theorem done_authorize {path : String} (hpath : canonicalizeUri uri.path = some path) (method payloadHash : String)
    (headers : Headers) :
    (RequestSigner.authorize platform cred method uri payloadHash).done headers = match headerPairs headers with
      | .ok pairs => (HeaderValue.parse (authorizationText platform cred uri method path payloadHash pairs)).map
          fun value => ((), headers.insert authorization value)
      | .error _ => none := by
  rw [done, runOn_authorize platform cred uri hpath]
  cases headerPairs headers with
  | ok pairs => exact done_insertHeader _ _ _ _
  | error e => rfl

theorem authorization_notMem_written : authorization ∉ written := by decide +kernel

theorem keepsOnError_authorize (method payloadHash : String) :
    KeepsOnError authorization (RequestSigner.authorize platform cred method uri payloadHash) := by
  intro headers
  rw [runOn_authorize platform cred uri (canonicalizeUri_eq uri.path)]
  cases headerPairs headers with
  | error e => exact fun _ => rfl
  | ok pairs =>
    dsimp only
    rw [runOn_insertHeader]
    cases HeaderValue.parse _ with
    | none => exact fun _ => rfl
    | some value => exact fun h => absurd h (by simp [Except.isOk, Except.toBool])

theorem keepsOnError_signHeaders (method : String) :
    KeepsOnError authorization (signer.signHeaders platform now uuid method uri (some cred)) :=
  (keeps_payloadHashOf platform signer authorization).bindOnError fun payloadHash =>
    ((fills_fillHeaders platform signer now uuid cred uri payloadHash).keeps authorization
      authorization_notMem_written).bindOnError fun _ => keepsOnError_authorize platform cred uri method payloadHash

theorem done_signHeaders (method : String) (headers : Headers) :
    (signer.signHeaders platform now uuid method uri (some cred)).done headers =
      (hashText platform signer headers).bind fun payloadHash =>
        (writeAll (writes platform signer now uuid cred uri headers payloadHash) headers).bind fun filled =>
          (RequestSigner.authorize platform cred method uri payloadHash).done filled := by
  rw [RequestSigner.signHeaders, done_bind, done_payloadHashOf]
  cases hashText platform signer headers with
  | none => rfl
  | some payloadHash =>
    simp only [Option.map_some, Option.bind_some]
    rw [done_bind, (fills_fillHeaders platform signer now uuid cred uri payloadHash).done]
    cases writeAll (writes platform signer now uuid cred uri headers payloadHash) headers <;> rfl

/-- What the signer writes into a request with these headers. -/
def ownWrites (headers : Headers) : Writes :=
  writes platform signer now uuid cred uri headers (signer.payloadHash.getD (platform.hexSha256 []))

theorem writes_hashText {headers : Headers} {payloadHash : String}
    (h : hashText platform signer headers = some payloadHash) :
    writes platform signer now uuid cred uri headers payloadHash =
      ownWrites platform signer now uuid cred uri headers := by
  have hpayload : payloadWrite signer headers payloadHash =
      payloadWrite signer headers (signer.payloadHash.getD (platform.hexSha256 [])) := by
    unfold payloadWrite
    unfold hashText at h
    cases hinjected : signer.payloadHash with
    | some hash =>
      rw [hinjected] at h
      rw [← Option.some.inj h]
      rfl
    | none =>
      rw [hinjected] at h
      cases hvalues : headers.values xAcsContentSha256 with
      | nil =>
        rw [hvalues] at h
        rw [← Option.some.inj h]
        rfl
      | cons value values => simp [missing, hvalues]
  rw [ownWrites, writes, writes, hpayload]

/-- All headers to write and to keep are visible text, and the key's id can stand in a header. -/
structure Signable (headers : Headers) : Prop where
  written : ∀ write ∈ ownWrites platform signer now uuid cred uri headers, Visible write.2
  kept : ∀ name, name ≠ authorization →
    name ∉ (ownWrites platform signer now uuid cred uri headers).map Prod.fst →
      ∀ value ∈ headers.values name, value.toStr.isSome = true
  keyId : Plain cred.accessKeyId

/-- What a request transmits is visible if and only if what was written and what was kept is. -/
theorem visible_filled {writes : Writes} {headers filled : Headers} (h : writeAll writes headers = some filled)
    (hnodup : (writes.map Prod.fst).Nodup) (hauth : authorization ∉ writes.map Prod.fst) :
    (∀ name, name ≠ authorization → ∀ value ∈ filled.values name, value.toStr.isSome = true) ↔
      (∀ write ∈ writes, Visible write.2) ∧ ∀ name, name ≠ authorization → name ∉ writes.map Prod.fst →
        ∀ value ∈ headers.values name, value.toStr.isSome = true := by
  have hplain := writeAll_isSome.1 (Option.isSome_of_eq_some h)
  constructor
  · intro hvisible
    refine ⟨fun write hwrite => ?_, fun name hname hkept value hvalue => ?_⟩
    · obtain ⟨value, hvalue⟩ := Option.isSome_iff_exists.1 (parse_isSome.2 (hplain write hwrite))
      have hmem := List.mem_map_of_mem (f := Prod.fst) hwrite
      rw [← visible_of_toStr hvalue]
      refine hvisible write.1 (fun heq => hauth (heq ▸ hmem)) value ?_
      rw [values_written h hnodup hwrite, hvalue]
      exact List.mem_singleton_self value
    · rw [← values_writeAll h hkept] at hvalue
      exact hvisible name hname value hvalue
  · rintro ⟨hwritten, hkept⟩ name hname value hvalue
    by_cases hmem : name ∈ writes.map Prod.fst
    · obtain ⟨⟨n, text⟩, hwrite, rfl⟩ := List.mem_map.1 hmem
      rw [values_written h hnodup hwrite, Option.mem_toList] at hvalue
      exact (visible_of_toStr hvalue).2 (hwritten _ hwrite)
    · rw [values_writeAll h hmem] at hvalue
      exact hkept name hname hmem value hvalue

theorem mem_of_mapM {entries : Headers} {pairs : List (String × String)} (h : entries.mapM headerPair = .ok pairs) :
    ∀ pair ∈ pairs, ∃ entry ∈ entries, headerPair entry = .ok pair := by
  induction entries generalizing pairs with
  | nil =>
    obtain rfl : pairs = [] := (Except.ok.inj h).symm
    simp
  | cons entry entries ih =>
    rw [List.mapM_cons] at h
    cases hpair : headerPair entry with
    | error e =>
      rw [hpair] at h
      cases h
    | ok pair =>
      cases hrest : entries.mapM headerPair with
      | error e =>
        rw [hpair, hrest] at h
        cases h
      | ok rest =>
        rw [hpair, hrest] at h
        obtain rfl : pairs = pair :: rest := (Except.ok.inj h).symm
        intro p hp
        rcases List.mem_cons.1 hp with rfl | hp
        · exact ⟨entry, List.mem_cons_self, hpair⟩
        · obtain ⟨entry', hentry, heq⟩ := ih hrest p hp
          exact ⟨entry', List.mem_cons_of_mem _ hentry, heq⟩

theorem plain_name (name : HeaderName) : Plain name.name := by
  have hvalid := name.valid
  simp only [isHeaderName, Bool.and_eq_true, List.all_eq_true] at hvalid
  exact plain_of_chars fun c hc => name_char (hvalid.2 c hc).1

theorem plain_pair {entry : HeaderName × HeaderValue} {pair : String × String} (h : headerPair entry = .ok pair) :
    Plain pair.1 := by
  unfold headerPair at h
  split at h
  · obtain rfl := Except.ok.inj h
    rw [lower_name]
    exact plain_name entry.1
  · cases h

theorem plain_pairs {headers : Headers} {pairs : List (String × String)} (h : headerPairs headers = .ok pairs) :
    ∀ pair ∈ pairs, Plain pair.1 := by
  rw [headerPairs_eq] at h
  cases hmap : (headers.filter fun entry => entry.1 != authorization).mapM headerPair with
  | error e =>
    rw [hmap] at h
    cases h
  | ok unsorted =>
    rw [hmap] at h
    obtain rfl := Except.ok.inj h
    intro pair hpair
    obtain ⟨entry, -, hentry⟩ := mem_of_mapM hmap pair (List.mem_mergeSort.1 hpair)
    exact plain_pair hentry

theorem plain_intercalate {sep : String} (hsep : Plain sep) {parts : List String} (h : ∀ part ∈ parts, Plain part) :
    Plain (sep.intercalate parts) := by
  rw [Plain, utf8_intercalate]
  exact forall_mem_intercalate (P := fun b => isValueByte b = true) hsep (List.forall_mem_map.2 h)

theorem plain_hexText {text : String} (h : isHexText text = true) : Plain text := by
  have hall : ∀ c ∈ "0123456789abcdef".toList, c.toNat < 128 ∧ isValueByte c.toUInt8 = true :=
    forall_mem_of_all (by decide)
  exact plain_of_chars fun c hc => hall c (List.contains_iff_mem.1 (List.all_eq_true.1 h c hc))

theorem plain_authorizationText {headers : Headers} {pairs : List (String × String)}
    (h : headerPairs headers = .ok pairs) (method path payloadHash : String) :
    Plain (authorizationText platform cred uri method path payloadHash pairs) ↔ Plain cred.accessKeyId := by
  have hsigned : Plain (signedHeaders pairs) :=
    plain_intercalate (by decide +kernel) (List.forall_mem_map.2 (plain_pairs h))
  have hsignature : ∀ key bytes, Plain (platform.hexHmacSha256 key bytes) :=
    fun key bytes => plain_hexText (platform.hex_hmac key bytes)
  have htexts : Plain acs3Algorithm ∧ Plain " Credential=" ∧ Plain ",SignedHeaders=" ∧ Plain ",Signature=" := by
    decide +kernel
  simp only [authorizationText, signAcs3, plain_append, hsigned, hsignature, htexts, true_and, and_true]

/-! What holds of a signed request. -/

theorem ownWrites_names (headers : Headers) :
    ((ownWrites platform signer now uuid cred uri headers).map Prod.fst).Sublist written :=
  (fills_fillHeaders platform signer now uuid cred uri _).within headers

theorem ownWrites_nodup (headers : Headers) : ((ownWrites platform signer now uuid cred uri headers).map Prod.fst).Nodup :=
  (ownWrites_names platform signer now uuid cred uri headers).nodup (by decide +kernel)

theorem authorization_notMem_ownWrites (headers : Headers) :
    authorization ∉ (ownWrites platform signer now uuid cred uri headers).map Prod.fst :=
  fun h => authorization_notMem_written ((ownWrites_names platform signer now uuid cred uri headers).subset h)

theorem mem_ownWrites_hash {headers : Headers} {text : String} :
    (xAcsContentSha256, text) ∈ ownWrites platform signer now uuid cred uri headers ↔
      (xAcsContentSha256, text) ∈ payloadWrite signer headers (signer.payloadHash.getD (platform.hexSha256 [])) := by
  have hne : xAcsContentSha256 ≠ host ∧ xAcsContentSha256 ≠ xAcsDate ∧ xAcsContentSha256 ≠ xAcsSignatureNonce ∧
      xAcsContentSha256 ≠ xAcsSecurityToken := by
    decide +kernel
  simp [ownWrites, writes, List.mem_append, mem_missing, hne]

theorem mem_ownWrites_token {headers : Headers} {text : String} :
    (xAcsSecurityToken, text) ∈ ownWrites platform signer now uuid cred uri headers ↔
      headers.values xAcsSecurityToken = [] ∧ cred.securityToken = some text := by
  have hne : xAcsSecurityToken ≠ host ∧ xAcsSecurityToken ≠ xAcsDate ∧ xAcsSecurityToken ≠ xAcsSignatureNonce ∧
      xAcsSecurityToken ≠ xAcsContentSha256 := by
    decide +kernel
  have hpayload : ∀ hash, (xAcsSecurityToken, text) ∉ payloadWrite signer headers hash := by
    intro hash
    unfold payloadWrite
    split <;> simp [mem_missing, hne]
  simp [ownWrites, writes, List.mem_append, mem_missing, hne, hpayload]

/-- The hash that is signed is the one that is sent. -/
theorem hashText_filled {headers filled : Headers}
    (h : writeAll (ownWrites platform signer now uuid cred uri headers) headers = some filled)
    (hvisible : ∀ value ∈ filled.values xAcsContentSha256, value.toStr.isSome = true) :
    ∃ hash, hashText platform signer headers = some hash ∧
      (filled.values xAcsContentSha256).head?.bind HeaderValue.toStr = some hash := by
  have hwritten : ∀ text, (xAcsContentSha256, text) ∈ ownWrites platform signer now uuid cred uri headers →
      (filled.values xAcsContentSha256).head?.bind HeaderValue.toStr = some text := by
    intro text hwrite
    have hvalues := values_written h (ownWrites_nodup platform signer now uuid cred uri headers) hwrite
    have hplain := writeAll_isSome.1 (Option.isSome_of_eq_some h) _ hwrite
    obtain ⟨value, hvalue⟩ := Option.isSome_iff_exists.1 (parse_isSome.2 hplain)
    rw [hvalue] at hvalues
    rw [hvalues] at hvisible ⊢
    exact toStr_parse hvalue ((visible_of_toStr hvalue).1 (hvisible value (List.mem_singleton_self value)))
  cases hinjected : signer.payloadHash with
  | some hash =>
    refine ⟨hash, by rw [hashText, hinjected], hwritten hash ?_⟩
    rw [mem_ownWrites_hash, payloadWrite, hinjected]
    exact List.mem_singleton_self _
  | none =>
    cases hvalues : headers.values xAcsContentSha256 with
    | nil =>
      refine ⟨platform.hexSha256 [], by simp [hashText, hinjected, hvalues], hwritten _ ?_⟩
      rw [mem_ownWrites_hash, payloadWrite, hinjected]
      exact mem_missing.2 ⟨rfl, hvalues, rfl⟩
    | cons value values =>
      have hkept : xAcsContentSha256 ∉ (ownWrites platform signer now uuid cred uri headers).map Prod.fst := by
        intro hmem
        obtain ⟨⟨name, text⟩, hwrite, rfl⟩ := List.mem_map.1 hmem
        rw [mem_ownWrites_hash, payloadWrite, hinjected] at hwrite
        have hnone := (mem_missing.1 hwrite).2.1
        rw [hvalues] at hnone
        cases hnone
      rw [values_writeAll h hkept, hvalues] at hvisible ⊢
      obtain ⟨hash, hhash⟩ := Option.isSome_iff_exists.1 (hvisible value List.mem_cons_self)
      exact ⟨hash, by simp [hashText, hinjected, hvalues, hhash], hhash⟩

/-- A request that is signed, step by step. -/
theorem done_signHeaders_iff {path : String} (hpath : canonicalizeUri uri.path = some path) (method : String)
    (headers final : Headers) :
    (signer.signHeaders platform now uuid method uri (some cred)).done headers = some ((), final) ↔
      ∃ hash filled pairs value, hashText platform signer headers = some hash ∧
        writeAll (ownWrites platform signer now uuid cred uri headers) headers = some filled ∧
        headerPairs filled = .ok pairs ∧
        HeaderValue.parse (authorizationText platform cred uri method path hash pairs) = some value ∧
        filled.insert authorization value = final := by
  rw [done_signHeaders]
  constructor
  · intro h
    obtain ⟨hash, hhash, h⟩ := Option.bind_eq_some_iff.1 h
    obtain ⟨filled, hfilled, h⟩ := Option.bind_eq_some_iff.1 h
    rw [done_authorize platform cred uri hpath] at h
    rw [writes_hashText platform signer now uuid cred uri hhash] at hfilled
    cases hpairs : headerPairs filled with
    | error e =>
      rw [hpairs] at h
      cases h
    | ok pairs =>
      rw [hpairs] at h
      obtain ⟨value, hvalue, heq⟩ := Option.map_eq_some_iff.1 h
      exact ⟨hash, filled, pairs, value, hhash, hfilled, hpairs, hvalue, congrArg Prod.snd heq⟩
  · rintro ⟨hash, filled, pairs, value, hhash, hfilled, hpairs, hvalue, rfl⟩
    rw [hhash, Option.bind_some, writes_hashText platform signer now uuid cred uri hhash, hfilled, Option.bind_some,
      done_authorize platform cred uri hpath, hpairs]
    dsimp only
    rw [hvalue]
    rfl

theorem signable_iff (method : String) (headers : Headers) :
    ((signer.signHeaders platform now uuid method uri (some cred)).done headers).isSome = true ↔
      Signable platform signer now uuid cred uri headers := by
  have hnodup := ownWrites_nodup platform signer now uuid cred uri headers
  have hauth := authorization_notMem_ownWrites platform signer now uuid cred uri headers
  have hpath := canonicalizeUri_eq uri.path
  constructor
  · intro h
    obtain ⟨⟨⟨⟩, final⟩, hdone⟩ := Option.isSome_iff_exists.1 h
    obtain ⟨hash, filled, pairs, value, -, hfilled, hpairs, hvalue, -⟩ :=
      (done_signHeaders_iff platform signer now uuid cred uri hpath method headers final).1 hdone
    obtain ⟨hwritten, hkept⟩ := (visible_filled hfilled hnodup hauth).1 (headerPairs_isOk.1 ⟨pairs, hpairs⟩)
    exact ⟨hwritten, hkept, (plain_authorizationText platform cred uri hpairs _ _ _).1
      (parse_isSome.1 (Option.isSome_of_eq_some hvalue))⟩
  · intro w
    obtain ⟨filled, hfilled⟩ := Option.isSome_iff_exists.1
      ((@writeAll_isSome _ headers).2 fun write hwrite => plain_of_visible (w.written write hwrite))
    have hvisible := (visible_filled hfilled hnodup hauth).2 ⟨w.written, w.kept⟩
    obtain ⟨hash, hhash, -⟩ := hashText_filled platform signer now uuid cred uri hfilled
      (hvisible xAcsContentSha256 (by decide +kernel))
    obtain ⟨pairs, hpairs⟩ := headerPairs_isOk.2 hvisible
    obtain ⟨value, hvalue⟩ := Option.isSome_iff_exists.1
      (parse_isSome.2 ((plain_authorizationText platform cred uri hpairs method _ hash).2 w.keyId))
    exact Option.isSome_of_eq_some ((done_signHeaders_iff platform signer now uuid cred uri hpath method headers _).2
      ⟨hash, filled, pairs, value, hhash, hfilled, hpairs, hvalue, rfl⟩)

/-- Text as the bytes of a header. -/
def textBytes (text : String) : List UInt8 := text.toUTF8.toList

/-- The token in the headers of a request. -/
def tokenBytes (headers : Headers) : List (List UInt8) :=
  (headers.values xAcsSecurityToken).map HeaderValue.bytes

theorem token_notMem {headers : Headers} (h : headers.values xAcsSecurityToken ≠ [] ∨ cred.securityToken = none) :
    xAcsSecurityToken ∉ (ownWrites platform signer now uuid cred uri headers).map Prod.fst := by
  intro hmem
  obtain ⟨⟨name, text⟩, hwrite, rfl⟩ := List.mem_map.1 hmem
  obtain ⟨hvalues, htoken⟩ := (mem_ownWrites_token platform signer now uuid cred uri).1 hwrite
  rcases h with hpresent | hnone
  · exact hpresent hvalues
  · rw [htoken] at hnone
    cases hnone

/-- A token that is there already stays. -/
theorem token_filled {headers filled : Headers}
    (h : writeAll (ownWrites platform signer now uuid cred uri headers) headers = some filled) :
    tokenBytes filled = (cred.securityToken.map textBytes).toList ↔
      tokenBytes headers = [] ∨ tokenBytes headers = (cred.securityToken.map textBytes).toList := by
  by_cases hvalues : headers.values xAcsSecurityToken = []
  · have hempty : tokenBytes headers = [] := by rw [tokenBytes, hvalues, List.map_nil]
    refine iff_of_true ?_ (.inl hempty)
    cases htoken : cred.securityToken with
    | none =>
      rw [tokenBytes, values_writeAll h (token_notMem platform signer now uuid cred uri (.inr htoken)), hvalues]
      rfl
    | some token =>
      have hwrite := (mem_ownWrites_token platform signer now uuid cred uri).2 ⟨hvalues, htoken⟩
      have hplain := writeAll_isSome.1 (Option.isSome_of_eq_some h) _ hwrite
      obtain ⟨value, hvalue⟩ := Option.isSome_iff_exists.1 (parse_isSome.2 hplain)
      rw [tokenBytes, values_written h (ownWrites_nodup platform signer now uuid cred uri headers) hwrite, hvalue]
      exact congrArg (fun bytes => [bytes]) (parse_eq_some.1 hvalue)
  · have hkept := values_writeAll h (token_notMem platform signer now uuid cred uri (.inl hvalues))
    have hne : tokenBytes headers ≠ [] := fun hempty => hvalues (List.map_eq_nil_iff.1 hempty)
    rw [tokenBytes, hkept, or_iff_right hne]
    rfl

/-- What verifies for a credential. -/
structure Verifies (final : Parts) : Prop where
  signed : ∃ path pairs hash, canonicalizeUri final.uri.path = some path ∧ headerPairs final.headers = .ok pairs ∧
    (final.headers.values xAcsContentSha256).head?.bind HeaderValue.toStr = some hash ∧
    (final.headers.values authorization).map HeaderValue.bytes =
      [textBytes (signAcs3 platform cred.accessKeyId cred.accessKeySecret final.method path
        (canonicalizeQuery (final.uri.query.getD "")) (canonicalHeaders pairs) (signedHeaders pairs) hash).2.2]
  token : tokenBytes final.headers = (cred.securityToken.map textBytes).toList

/-- An authorization that can be made for a credential. -/
def MadeFor (value : HeaderValue) : Prop :=
  ∃ method path query headers signed hash, value.bytes = textBytes
    (signAcs3 platform cred.accessKeyId cred.accessKeySecret method path query headers signed hash).2.2

/-- What is promised of a request that a signer leaves. -/
def Promised (left : Except SignError Unit × Parts) : Prop :=
  match left.1 with
  | .ok _ => Verifies platform cred left.2
  | .error _ => ∀ value ∈ left.2.headers.values authorization, ¬ MadeFor platform cred value

section
variable (req : Parts)

theorem promised_of_signable (h : Signable platform signer now uuid cred req.uri req.headers) :
    Promised platform cred (signer.signRequest platform now uuid req (some cred)) ↔
      tokenBytes req.headers = [] ∨ tokenBytes req.headers = (cred.securityToken.map textBytes).toList := by
  have hpath := canonicalizeUri_eq req.uri.path
  obtain ⟨⟨⟨⟩, final⟩, hdone⟩ := Option.isSome_iff_exists.1
    ((signable_iff platform signer now uuid cred req.uri req.method req.headers).2 h)
  have hrun : signer.signRequest platform now uuid req (some cred) = (.ok (), { req with headers := final }) := by
    unfold Signing.done at hdone
    rw [RequestSigner.signRequest]
    split at hdone
    · next hrun =>
      rw [hrun, ← (Prod.mk.inj (Option.some.inj hdone)).2]
    · cases hdone
  obtain ⟨hash, filled, pairs, value, hhash, hfilled, hpairs, hvalue, rfl⟩ :=
    (done_signHeaders_iff platform signer now uuid cred req.uri hpath req.method req.headers final).1 hdone
  have hother : ∀ name, name ≠ authorization → (filled.insert authorization value).values name = filled.values name :=
    fun name hname => by rw [Headers.values_insert, if_neg hname]
  have htoken : tokenBytes (filled.insert authorization value) = tokenBytes filled := by
    rw [tokenBytes, hother xAcsSecurityToken (by decide +kernel), tokenBytes]
  obtain ⟨sent, hsent, hsame⟩ := hashText_filled platform signer now uuid cred req.uri hfilled
    (headerPairs_isOk.1 ⟨pairs, hpairs⟩ xAcsContentSha256 (by decide +kernel))
  obtain rfl : sent = hash := Option.some.inj (hsent.symm.trans hhash)
  rw [hrun, ← token_filled platform signer now uuid cred req.uri hfilled, ← htoken]
  refine ⟨Verifies.token, fun htoken => ⟨⟨_, pairs, sent, hpath, ?_, ?_, ?_⟩, htoken⟩⟩
  · exact (headerPairs_insert filled value).trans hpairs
  · change ((filled.insert authorization value).values xAcsContentSha256).head?.bind HeaderValue.toStr = some sent
    rw [hother xAcsContentSha256 (by decide +kernel), hsame]
  · change ((filled.insert authorization value).values authorization).map HeaderValue.bytes = _
    rw [Headers.values_insert, if_pos rfl]
    exact congrArg (fun bytes => [bytes]) (parse_eq_some.1 hvalue)

theorem promised_of_not_signable (h : ¬ Signable platform signer now uuid cred req.uri req.headers) :
    Promised platform cred (signer.signRequest platform now uuid req (some cred)) ↔
      ∀ value ∈ req.headers.values authorization, ¬ MadeFor platform cred value := by
  have hkeeps := keepsOnError_signHeaders platform signer now uuid cred req.uri req.method req.headers
  rw [← signable_iff platform signer now uuid cred req.uri req.method req.headers, Signing.done] at h
  rw [RequestSigner.signRequest]
  cases hrun : (signer.signHeaders platform now uuid req.method req.uri (some cred)).runOn req.headers with
  | mk result headers =>
    rw [hrun] at h hkeeps
    cases result with
    | ok a => exact absurd rfl h
    | error e =>
      rw [← hkeeps rfl]
      rfl

/-- A request that can be signed verifies unless it has another token; one that cannot be signed keeps the
authorization that it has. -/
theorem signRequest_promised_iff : Promised platform cred (signer.signRequest platform now uuid req (some cred)) ↔
    (Signable platform signer now uuid cred req.uri req.headers →
      tokenBytes req.headers = [] ∨ tokenBytes req.headers = (cred.securityToken.map textBytes).toList) ∧
    (¬ Signable platform signer now uuid cred req.uri req.headers →
      ∀ value ∈ req.headers.values authorization, ¬ MadeFor platform cred value) := by
  by_cases h : Signable platform signer now uuid cred req.uri req.headers
  · rw [promised_of_signable platform signer now uuid cred req h]
    exact ⟨fun htoken => ⟨fun _ => htoken, fun hnot => absurd h hnot⟩, fun w => w.1 h⟩
  · rw [promised_of_not_signable platform signer now uuid cred req h]
    exact ⟨fun hnone => ⟨fun hsigns => absurd hsigns h, fun _ => hnone⟩, fun w => w.2 h⟩

end

end

/-- The token of an earlier credential is signed in the place of the new one. -/
theorem stale_token_signed : ¬ ∀ (platform : Platform Unit) (signer : RequestSigner Unit) (uuid : String)
    (cred : Credential) (req : Parts), Promised platform cred (signer.signRequest platform () uuid req (some cred)) := by
  intro h
  let platform : Platform Unit := ⟨fun _ => "", fun _ => "", fun _ _ => "", fun _ => rfl, fun _ _ => rfl⟩
  let signer : RequestSigner Unit := ⟨none, none, none⟩
  let cred : Credential := ⟨"id", "secret", some "new"⟩
  let old : HeaderValue := ⟨[111, 108, 100], by decide⟩
  let req : Parts := ⟨"GET", ⟨"/", none, none⟩, [(xAcsSecurityToken, old)]⟩
  have hsignable : Signable platform signer () "" cred req.uri req.headers := by
    refine ⟨by decide +kernel, fun name _ _ value hvalue => ?_, by decide +kernel⟩
    obtain ⟨rfl, rfl⟩ := Prod.mk.inj (List.mem_singleton.1 (Headers.mem_values.1 hvalue))
    decide +kernel
  have htoken := (promised_of_signable platform signer () "" cred req hsignable).1 (h platform signer "" cred req)
  exact absurd htoken (by decide +kernel)

end Fusions.Security.Acs3
