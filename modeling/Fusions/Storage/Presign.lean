import Mathlib.Data.List.Basic
import Fusions.Library.Runs
import Fusions.Library.Calls

/-! Presigned URLs for downloads and uploads, and the cache of them that all operators of the process share. Moments
are in nanoseconds since the epoch. -/
namespace Fusions.Storage
open Fusions.Library

structure Capability where
  presign : Bool
  presignRead : Bool
  presignWrite : Bool
  deriving DecidableEq, Repr

/-- What operators can do, and what their native presign gives at a moment. -/
structure Backends (Op : Type) where
  capability : Op → Capability
  presignRead : Op → String → UInt64 → Option String → Int → Except String String
  presignWrite : Op → String → UInt64 → Int → Except String String

/-- HMAC-SHA256 of a message, with its key first. -/
abbrev Mac := List UInt8 → List UInt8 → List UInt8

structure FsPresignRoutes where
  authority : String
  scheme : String
  read : String
  write : String
  deriving DecidableEq, Repr

def timestamp (moment : Int) : Int64 := .ofInt (moment / 1000000000)

/-- `now_bucket`, with the cast of the ttl that may turn negative. -/
def ttlBucket (moment : Int) (ttlSecs : UInt64) : Int64 := timestamp moment / ttlSecs.toInt64

/-- `bucketed_expires`, which wraps around as in a release build. -/
def bucketedExpires (nowSecs : Int64) (ttlSecs : UInt64) : Int64 :=
  (nowSecs / ttlSecs.toInt64 + 2) * ttlSecs.toInt64

def hexDigit (digits : String) (n : Nat) : Char := digits.toList.getD n '0'

def hexEncode (digits : String) (byte : UInt8) : String :=
  String.ofList [hexDigit digits (byte.toNat / 16), hexDigit digits (byte.toNat % 16)]

def hmacSign (mac : Mac) (message : String) (hmacSecret : List UInt8) : String :=
  String.join ((mac hmacSecret message.toUTF8.toList).map (hexEncode "0123456789abcdef"))

def signRead (mac : Mac) (key : String) (expires : Int64) (creatorId : String) (hmacSecret : List UInt8) : String :=
  hmacSign mac s!"{creatorId}:{key}:{expires}" hmacSecret

def signUpload (mac : Mac) (key : String) (expires : Int64) (creatorId : String) (hmacSecret : List UInt8) : String :=
  hmacSign mac s!"PUT:{creatorId}:{key}:{expires}" hmacSecret

/-- `utf8_percent_encode` with `NON_ALPHANUMERIC`. -/
def percentEncode (s : String) : String :=
  String.join (s.toUTF8.toList.map fun byte =>
    let c := Char.ofNat byte.toNat
    if byte < 128 && c.isAlphanum then String.singleton c else "%" ++ hexEncode "0123456789ABCDEF" byte)

def sanitizeFilename (name : String) : String :=
  String.ofList (name.toList.filter fun c => c != '\x22' && c != '\x5c')

def contentDispositionAttachment (filename : String) : String :=
  let clean := sanitizeFilename filename
  if clean.toList.all (·.toNat < 128) then s!"attachment; filename=\"{clean}\""
  else s!"attachment; filename=\"download\"; filename*=UTF-8''{percentEncode clean}"

def fsSignedUrl (scheme authority route key token : String) (expires : Int64) (creatorId : String)
    (downloadFilename : Option String) : String :=
  let url := s!"{scheme}://{authority}{route}/{key}?token={token}&expires={expires}&creator_id={creatorId}"
  match downloadFilename with
  | some name => url ++ "&download_filename=" ++ percentEncode name
  | none => url

/-- The arguments of `generate_signed_download_url` and of `generate_signed_upload_url`, but for the operator. -/
inductive PresignRequest where
  | download (key creatorId : String) (ttlSecs : UInt64) (downloadFilename : Option String) (routes : FsPresignRoutes)
  | upload (key creatorId : String) (ttlSecs : UInt64) (routes : FsPresignRoutes)
  deriving DecidableEq, Repr

structure PresignCacheKey where
  write : Bool
  key : String
  creatorId : String
  ttlSecs : UInt64
  downloadFilename : Option String
  fsAuthority : String
  fsScheme : String
  fsReadRoute : String
  fsWriteRoute : String
  deriving DecidableEq, Repr

namespace PresignRequest

def ttlSecs : PresignRequest → UInt64
  | .download _ _ ttlSecs _ _ | .upload _ _ ttlSecs _ => ttlSecs

def cacheKey : PresignRequest → PresignCacheKey
  | .download key creatorId ttlSecs downloadFilename routes =>
    ⟨false, key, creatorId, ttlSecs, downloadFilename, routes.authority, routes.scheme, routes.read, routes.write⟩
  | .upload key creatorId ttlSecs routes =>
    ⟨true, key, creatorId, ttlSecs, none, routes.authority, routes.scheme, routes.read, routes.write⟩

/-- The key has all the arguments, but not the operator. -/
theorem cacheKey_injective : Function.Injective cacheKey := by
  rintro (⟨_, _, _, _, _, _, _, _⟩ | ⟨_, _, _, _, _, _, _⟩) (⟨_, _, _, _, _, _, _, _⟩ | ⟨_, _, _, _, _, _, _⟩) h <;>
    simp_all [cacheKey]

end PresignRequest

section
variable {Op : Type} (backends : Backends Op) (mac : Mac) (hmacSecret : List UInt8)

def presignDownloadUncached (op : Op) (key creatorId : String) (ttlSecs : UInt64) (downloadFilename : Option String)
    (routes : FsPresignRoutes) (moment : Int) : Except String String :=
  let cap := backends.capability op
  if cap.presign || cap.presignRead then
    (backends.presignRead op key ttlSecs (downloadFilename.map contentDispositionAttachment) moment).mapError
      ("presign_read failed: " ++ ·)
  else
    let expires := bucketedExpires (timestamp moment) ttlSecs
    let token := signRead mac key expires creatorId hmacSecret
    .ok (fsSignedUrl routes.scheme routes.authority routes.read key token expires creatorId downloadFilename)

def presignUploadUncached (op : Op) (key creatorId : String) (ttlSecs : UInt64) (routes : FsPresignRoutes)
    (moment : Int) : Except String String :=
  let cap := backends.capability op
  if cap.presignWrite then
    (backends.presignWrite op key ttlSecs moment).mapError ("presign_write failed: " ++ ·)
  else
    let expires := bucketedExpires (timestamp moment) ttlSecs
    let token := signUpload mac key expires creatorId hmacSecret
    .ok (fsSignedUrl routes.scheme routes.authority routes.write key token expires creatorId none)

namespace PresignRequest

/-- The uncached path of a request. -/
def uncached (op : Op) (moment : Int) : PresignRequest → Except String String
  | .download key creatorId ttlSecs downloadFilename routes =>
    presignDownloadUncached backends mac hmacSecret op key creatorId ttlSecs downloadFilename routes moment
  | .upload key creatorId ttlSecs routes =>
    presignUploadUncached backends mac hmacSecret op key creatorId ttlSecs routes moment

/-- The request goes to the native presign of the operator. -/
def native (op : Op) : PresignRequest → Bool
  | .download .. => (backends.capability op).presign || (backends.capability op).presignRead
  | .upload .. => (backends.capability op).presignWrite

/-- The same operator, or two that leave the request to the signed local routes. -/
def Alike (request : PresignRequest) (op op' : Op) : Prop :=
  op = op' ∨ (request.native backends op = false ∧ request.native backends op' = false)

variable {backends}

theorem Alike.uncached_eq {request : PresignRequest} {op op' : Op} (h : request.Alike backends op op') (moment : Int) :
    request.uncached backends mac hmacSecret op moment = request.uncached backends mac hmacSecret op' moment := by
  rcases h with rfl | ⟨hop, hop'⟩
  · rfl
  · cases request <;> simp only [native] at hop hop' <;>
      simp [uncached, presignDownloadUncached, presignUploadUncached, hop, hop']

end PresignRequest
end

structure PresignCacheEntry where
  key : PresignCacheKey
  url : String
  bucket : Int64
  deriving DecidableEq, Repr

/-- `PRESIGN_CACHE`, with one entry at most for a key. -/
abbrev PresignCache := List PresignCacheEntry

def presignCacheMaxEntries : Nat := 4096

def presignCacheHit (cache : PresignCache) (key : PresignCacheKey) (nowBucket : Int64) : Option String :=
  ((cache.find? (·.key == key)).filter (·.bucket == nowBucket)).map (·.url)

def presignCacheStore (cache : PresignCache) (key : PresignCacheKey) (url : String) (nowBucket : Int64) :
    PresignCache :=
  let cache := if presignCacheMaxEntries ≤ cache.length then cache.filter (nowBucket ≤ ·.bucket) else cache
  let cache := if presignCacheMaxEntries ≤ cache.length then [] else cache
  ⟨key, url, nowBucket⟩ :: cache.filter (·.key != key)

section
variable {cache : PresignCache} {key : PresignCacheKey} {url : String} {nowBucket : Int64}

theorem mem_of_presignCacheHit (h : presignCacheHit cache key nowBucket = some url) :
    ⟨key, url, nowBucket⟩ ∈ cache := by
  obtain ⟨entry, hentry, rfl⟩ := Option.map_eq_some_iff.1 h
  obtain ⟨hfound, hbucket⟩ := Option.filter_eq_some_iff.1 hentry
  have hkey : entry.key = key := by simpa using List.find?_some hfound
  have hnow : entry.bucket = nowBucket := by simpa using hbucket
  subst hkey hnow
  exact List.mem_of_find?_eq_some hfound

theorem eq_or_mem_of_mem_presignCacheStore {entry : PresignCacheEntry}
    (h : entry ∈ presignCacheStore cache key url nowBucket) : entry = ⟨key, url, nowBucket⟩ ∨ entry ∈ cache := by
  rcases List.mem_cons.1 h with heq | hkept
  · exact .inl heq
  · have hretained (cache' : PresignCache) (hmem : entry ∈ if presignCacheMaxEntries ≤ cache'.length then [] else cache') :
        entry ∈ cache' := by
      split at hmem
      · exact absurd hmem List.not_mem_nil
      · exact hmem
    have hmem := hretained _ (List.mem_of_mem_filter hkept)
    split at hmem
    · exact .inr (List.mem_of_mem_filter hmem)
    · exact .inr hmem

end

/-- Where a call stands. A URL is returned at a moment. -/
inductive PresignPhase where
  | begun
  | missed
  | signed (url : String)
  | returned (result : Except String String) (moment : Int)

/-- A call of `generate_signed_download_url` or `generate_signed_upload_url`, with the bucket that it has computed. -/
structure PresignCall (Op : Type) where
  op : Op
  request : PresignRequest
  nowBucket : Int64
  phase : PresignPhase

/-- The process: its clock, its cache, and the calls. -/
structure Presigning (Op : Type) where
  clock : Int
  cache : PresignCache
  calls : List (PresignCall Op)

inductive PresignStep (Op : Type) where
  | passes (clock : Int)
  | begins (op : Op) (request : PresignRequest)
  | looks (place : Nat)
  | signs (place : Nat)
  | stores (place : Nat)

namespace Presigning
variable {Op : Type} (backends : Backends Op) (mac : Mac) (hmacSecret : List UInt8) (s : Presigning Op)

/-- A call goes on to a phase. -/
def goes (place : Nat) (call : PresignCall Op) (phase : PresignPhase) : Presigning Op :=
  { s with calls := s.calls.set place { call with phase := phase } }

def next : PresignStep Op → Option (Presigning Op)
  | .passes clock => if s.clock ≤ clock then some { s with clock := clock } else none
  | .begins op request =>
    -- a ttl of 0 is a division by zero
    if request.ttlSecs = 0 then none
    else some { s with calls := s.calls ++ [⟨op, request, ttlBucket s.clock request.ttlSecs, .begun⟩] }
  | .looks place =>
    match s.calls[place]? with
    | some ⟨op, request, nowBucket, .begun⟩ =>
      match presignCacheHit s.cache request.cacheKey nowBucket with
      | some url => some (s.goes place ⟨op, request, nowBucket, .begun⟩ (.returned (.ok url) s.clock))
      | none => some (s.goes place ⟨op, request, nowBucket, .begun⟩ .missed)
    | _ => none
  | .signs place =>
    match s.calls[place]? with
    | some ⟨op, request, nowBucket, .missed⟩ =>
      match request.uncached backends mac hmacSecret op s.clock with
      | .ok url => some (s.goes place ⟨op, request, nowBucket, .missed⟩ (.signed url))
      | .error e => some (s.goes place ⟨op, request, nowBucket, .missed⟩ (.returned (.error e) s.clock))
    | _ => none
  | .stores place =>
    match s.calls[place]? with
    | some ⟨op, request, nowBucket, .signed url⟩ =>
      let s := s.goes place ⟨op, request, nowBucket, .signed url⟩ (.returned (.ok url) s.clock)
      some { s with cache := presignCacheStore s.cache request.cacheKey url nowBucket }
    | _ => none

/-- A process that starts with an empty cache at any moment. -/
def system : System (Presigning Op) (PresignStep Op) where
  init s := s.cache = [] ∧ s.calls = []
  step s i s' := s.next backends mac hmacSecret i = some s'

/-- A call that finds a URL in the cache is for the same operator as the calls with its arguments that have returned
one in its bucket, or like them it has no use for the operator. -/
def OneStore : PresignStep Op → Prop
  | .looks place => ∀ call, s.calls[place]? = some call →
    presignCacheHit s.cache call.request.cacheKey call.nowBucket ≠ none →
    ∀ other ∈ s.calls, ∀ url moment, other.phase = .returned (.ok url) moment → other.request = call.request →
      other.nowBucket = call.nowBucket → call.request.Alike backends other.op call.op
  | _ => True

end Presigning

namespace PresignCall
variable {Op : Type} (backends : Backends Op) (mac : Mac) (hmacSecret : List UInt8) (call : PresignCall Op)

/-- The uncached path of the call gives the URL between the start of its bucket and a moment. -/
def Signs (url : String) (moment : Int) : Prop :=
  ∃ started signed, ttlBucket started call.request.ttlSecs = call.nowBucket ∧ started ≤ signed ∧ signed ≤ moment ∧
    call.request.uncached backends mac hmacSecret call.op signed = .ok url

variable {backends mac hmacSecret call}

theorem Signs.mono {url : String} {moment moment' : Int} (h : call.Signs backends mac hmacSecret url moment)
    (hle : moment ≤ moment') : call.Signs backends mac hmacSecret url moment' := by
  obtain ⟨started, signed, hbucket, hstarted, hsigned, hurl⟩ := h
  exact ⟨started, signed, hbucket, hstarted, Int.le_trans hsigned hle, hurl⟩

/-- Calls with the same arguments for operators that sign alike can have each other's URLs. -/
theorem Signs.alike {other : PresignCall Op} {url : String} {moment : Int}
    (h : other.Signs backends mac hmacSecret url moment) (hrequest : other.request = call.request)
    (hbucket : other.nowBucket = call.nowBucket) (halike : call.request.Alike backends other.op call.op) :
    call.Signs backends mac hmacSecret url moment := by
  obtain ⟨started, signed, hstart, hstarted, hsigned, hurl⟩ := h
  rw [hrequest] at hstart hurl
  rw [halike.uncached_eq] at hurl
  exact ⟨started, signed, hstart.trans hbucket, hstarted, hsigned, hurl⟩

end PresignCall

namespace Presigning
variable {Op : Type} (backends : Backends Op) (mac : Mac) (hmacSecret : List UInt8) (s : Presigning Op)

/-- What the cache and the calls owe to the uncached path. -/
structure Inv : Prop where
  cached : ∀ entry ∈ s.cache, ∃ call ∈ s.calls, ∃ moment, call.phase = .returned (.ok entry.url) moment ∧
    call.request.cacheKey = entry.key ∧ call.nowBucket = entry.bucket
  started : ∀ call ∈ s.calls, ∃ started, ttlBucket started call.request.ttlSecs = call.nowBucket ∧ started ≤ s.clock
  signed : ∀ call ∈ s.calls, ∀ url, call.phase = .signed url → call.Signs backends mac hmacSecret url s.clock
  returned : ∀ call ∈ s.calls, ∀ url moment, call.phase = .returned (.ok url) moment →
    call.Signs backends mac hmacSecret url moment ∧ moment ≤ s.clock

variable {backends mac hmacSecret s} {s' : Presigning Op} {place : Nat} {call : PresignCall Op}

/-- A call that has not returned goes on to a phase that fits. -/
theorem Inv.goes {phase : PresignPhase} (w : s.Inv backends mac hmacSecret) (hat : s.calls[place]? = some call)
    (hopen : ∀ result moment, call.phase ≠ .returned result moment)
    (hsigned : ∀ url, phase = .signed url → call.Signs backends mac hmacSecret url s.clock)
    (hreturned : ∀ url moment, phase = .returned (.ok url) moment →
      call.Signs backends mac hmacSecret url moment ∧ moment ≤ s.clock) :
    (s.goes place call phase).Inv backends mac hmacSecret where
  cached entry hentry := by
    obtain ⟨other, hother, moment, hphase, hsame⟩ := w.cached entry hentry
    refine ⟨other, mem_moved hat _ hother ?_, moment, hphase, hsame⟩
    rintro rfl
    exact hopen _ _ hphase
  started other hother := by
    rcases List.mem_or_eq_of_mem_set hother with hold | rfl
    · exact w.started other hold
    · exact w.started call (List.mem_of_getElem? hat)
  signed other hother := by
    rcases List.mem_or_eq_of_mem_set hother with hold | rfl
    · exact w.signed other hold
    · exact hsigned
  returned other hother := by
    rcases List.mem_or_eq_of_mem_set hother with hold | rfl
    · exact w.returned other hold
    · exact hreturned

/-- The cache takes the URL that a call has returned. -/
theorem Inv.stored {url : String} {moment : Int} (w : s.Inv backends mac hmacSecret) (hcall : call ∈ s.calls)
    (hphase : call.phase = .returned (.ok url) moment) :
    Inv backends mac hmacSecret
      { s with cache := presignCacheStore s.cache call.request.cacheKey url call.nowBucket } where
  cached entry hentry := by
    rcases eq_or_mem_of_mem_presignCacheStore hentry with rfl | hold
    · exact ⟨call, hcall, moment, hphase, rfl, rfl⟩
    · exact w.cached entry hold
  started := w.started
  signed := w.signed
  returned := w.returned

/-- A URL that is found in the cache is one that the uncached path of the call gives as well. -/
theorem Inv.hit {url : String} (w : s.Inv backends mac hmacSecret) (hat : s.calls[place]? = some call)
    (hhit : presignCacheHit s.cache call.request.cacheKey call.nowBucket = some url)
    (hstore : s.OneStore backends (.looks place)) : call.Signs backends mac hmacSecret url s.clock := by
  obtain ⟨other, hother, moment, hphase, hkey, hbucket⟩ := w.cached _ (mem_of_presignCacheHit hhit)
  have hrequest : other.request = call.request := PresignRequest.cacheKey_injective hkey
  have hfound : presignCacheHit s.cache call.request.cacheKey call.nowBucket ≠ none := by simp [hhit]
  obtain ⟨hsigns, hle⟩ := w.returned other hother url moment hphase
  exact (hsigns.alike hrequest hbucket (hstore call hat hfound other hother url moment hphase hrequest hbucket)).mono hle

theorem Inv.passes {clock : Int} (w : s.Inv backends mac hmacSecret) (hle : s.clock ≤ clock) :
    Inv backends mac hmacSecret { s with clock := clock } where
  cached := w.cached
  started call hcall := by
    obtain ⟨started, hbucket, hstarted⟩ := w.started call hcall
    exact ⟨started, hbucket, Int.le_trans hstarted hle⟩
  signed call hcall url hphase := (w.signed call hcall url hphase).mono hle
  returned call hcall url moment hphase := by
    obtain ⟨hsigns, hmoment⟩ := w.returned call hcall url moment hphase
    exact ⟨hsigns, Int.le_trans hmoment hle⟩

theorem Inv.begins (w : s.Inv backends mac hmacSecret) (op : Op) (request : PresignRequest) :
    Inv backends mac hmacSecret
      { s with calls := s.calls ++ [⟨op, request, ttlBucket s.clock request.ttlSecs, .begun⟩] } where
  cached entry hentry := by
    obtain ⟨call, hcall, hsame⟩ := w.cached entry hentry
    exact ⟨call, List.mem_append_left _ hcall, hsame⟩
  started call hcall := by
    rcases List.mem_append.1 hcall with hold | hbegun
    · exact w.started call hold
    · obtain rfl := List.mem_singleton.1 hbegun
      exact ⟨s.clock, rfl, Int.le_refl _⟩
  signed call hcall := by
    rcases List.mem_append.1 hcall with hold | hbegun
    · exact w.signed call hold
    · obtain rfl := List.mem_singleton.1 hbegun
      exact nofun
  returned call hcall := by
    rcases List.mem_append.1 hcall with hold | hbegun
    · exact w.returned call hold
    · obtain rfl := List.mem_singleton.1 hbegun
      exact nofun

theorem Inv.next {step : PresignStep Op} (w : s.Inv backends mac hmacSecret)
    (hnext : s.next backends mac hmacSecret step = some s') (hstore : s.OneStore backends step) :
    s'.Inv backends mac hmacSecret := by
  unfold Presigning.next at hnext
  cases step with
  | passes clock =>
    obtain ⟨hle, hs'⟩ := Option.ite_none_right_eq_some.1 hnext
    cases hs'
    exact w.passes hle
  | begins op request =>
    obtain ⟨-, hs'⟩ := Option.ite_none_left_eq_some.1 hnext
    cases hs'
    exact w.begins op request
  | looks place =>
    dsimp only at hnext
    split at hnext
    · next hat =>
      split at hnext
      · next hhit =>
        cases hnext
        refine w.goes hat nofun nofun ?_
        rintro _ _ ⟨⟩
        exact ⟨w.hit hat hhit hstore, Int.le_refl _⟩
      · cases hnext
        exact w.goes hat nofun nofun nofun
    · cases hnext
  | signs place =>
    dsimp only at hnext
    split at hnext
    · next hat =>
      split at hnext
      · next hurl =>
        cases hnext
        refine w.goes hat nofun ?_ nofun
        rintro _ ⟨⟩
        obtain ⟨started, hbucket, hstarted⟩ := w.started _ (List.mem_of_getElem? hat)
        exact ⟨started, s.clock, hbucket, hstarted, Int.le_refl _, hurl⟩
      · cases hnext
        exact w.goes hat nofun nofun nofun
    · cases hnext
  | stores place =>
    dsimp only at hnext
    split at hnext
    · next op request nowBucket url hat =>
      cases hnext
      have hreturned :
          (s.goes place ⟨op, request, nowBucket, .signed url⟩ (.returned (.ok url) s.clock)).Inv backends mac
            hmacSecret := by
        refine w.goes hat nofun nofun ?_
        rintro _ _ ⟨⟩
        exact ⟨w.signed _ (List.mem_of_getElem? hat) url rfl, Int.le_refl _⟩
      exact hreturned.stored (List.mem_of_getElem? (moved_self hat _)) rfl
    · cases hnext

/-- As long as the calls that find a URL in the cache are for the operator it was signed with, every URL returned is one
that the uncached path of the call gives at some moment from the start of its bucket on. -/
theorem presign_transparent (h : (system backends mac hmacSecret).ReachableIf (OneStore backends) s) :
    ∀ call ∈ s.calls, ∀ url moment, call.phase = .returned (.ok url) moment →
      call.Signs backends mac hmacSecret url moment := by
  have w : s.Inv backends mac hmacSecret := by
    refine h.invariant ?_ fun s step s' _ w hstep hstore => w.next hstep hstore
    rintro s ⟨hcache, hcalls⟩
    constructor <;> simp [hcache, hcalls]
  exact fun call hcall url moment hphase => (w.returned call hcall url moment hphase).1

/-- Two stores whose native presign gives URLs on different hosts. -/
private def hosts : Backends Bool where
  capability _ := ⟨true, false, false⟩
  presignRead op key _ _ _ := .ok ((if op then "https://a/" else "https://b/") ++ key)
  presignWrite _ _ _ _ := .error "unsupported"

private def noMac : Mac := fun _ _ => []

/-- A download for a quarter of an hour. -/
private def quarter : PresignRequest := .download "k" "ada" 900 none ⟨"h", "http", "/storage", "/upload"⟩

/-- The first store signs a URL, and a minute later the same is asked of another. -/
private def minuteLater (op : Bool) : List (PresignStep Bool) :=
  [.begins true quarter, .looks 0, .signs 0, .stores 0, .passes 60000000000, .begins op quarter, .looks 1]

private def asked (op : Bool) : Presigning Bool where
  clock := 60000000000
  cache := [⟨quarter.cacheKey, "https://a/k", 0⟩]
  calls := [⟨true, quarter, 0, .returned (.ok "https://a/k") 0⟩,
    ⟨op, quarter, 0, .returned (.ok "https://a/k") 60000000000⟩]

/-- The same store is asked twice. -/
theorem presign_transparent_twice :
    (system hosts noMac []).ReachableIf (OneStore hosts) (asked true) ∧
      PresignCall.Signs hosts noMac [] ⟨true, quarter, 0, .returned (.ok "https://a/k") 60000000000⟩ "https://a/k"
        60000000000 := by
  have hplay : System.play (next hosts noMac []) (fun s _ => ∀ call ∈ s.calls, call.op = true) ⟨0, [], []⟩
      (minuteLater true) = some (asked true) := by rfl
  have hreach : (system hosts noMac []).ReachableIf (OneStore hosts) (asked true) := by
    have hrun : (system hosts noMac []).ReachableIf (fun s _ => ∀ call ∈ s.calls, call.op = true) (asked true) :=
      .play (fun _ _ _ hnext => hnext) (.init ⟨rfl, rfl⟩) hplay
    refine hrun.mono ?_
    rintro s (_ | _ | _ | _ | _) hfirst
    case looks place =>
      exact fun call hat _ other hother _ _ _ _ _ =>
        .inl ((hfirst other hother).trans (hfirst call (List.mem_of_getElem? hat)).symm)
    all_goals trivial
  exact ⟨hreach, presign_transparent hreach _ (.tail _ (.head _)) _ _ rfl⟩

/-- The second store hands out a URL of the first, which it never signs. -/
theorem cached_for_another_store :
    (system hosts noMac []).Reachable (asked false) ∧
      ∀ moment, quarter.uncached hosts noMac [] false moment ≠ .ok "https://a/k" := by
  have hplay : System.play (next hosts noMac []) (fun _ _ => True) ⟨0, [], []⟩ (minuteLater false) =
      some (asked false) := by rfl
  refine ⟨.play (fun _ _ _ hnext => hnext) (.init ⟨rfl, rfl⟩) hplay, fun moment h => ?_⟩
  have hown : quarter.uncached hosts noMac [] false moment = .ok "https://b/k" := rfl
  rw [hown] at h
  exact absurd (Except.ok.inj h) (by decide)

end Presigning

end Fusions.Storage
