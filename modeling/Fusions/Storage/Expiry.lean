import Mathlib.Algebra.Group.Int.Defs
import Fusions.Storage.Presign

/-! How long the signed local URLs last, when the calls of the process come one after the other. -/
namespace Fusions.Storage
open Fusions.Library

/-- A ttl that is not 0 and a moment from the epoch on, with twice the ttl after it in range. -/
structure InRange (moment : Int) (ttlSecs : UInt64) : Prop where
  positive : 1 ≤ ttlSecs.toNat
  since : 0 ≤ moment
  fits : moment / 1000000000 + 2 * ttlSecs.toNat < 2 ^ 63

section
variable {moment later : Int} {ttlSecs : UInt64}

theorem InRange.ttl_toInt (h : InRange moment ttlSecs) : ttlSecs.toInt64.toInt = ttlSecs.toNat := by
  have hlt : ttlSecs.toNat < 2 ^ 63 := by
    have := h.since
    have := h.fits
    omega
  rw [← UInt64.ofNat_toNat (x := ttlSecs), UInt64.toInt64_ofNat', Int64.toInt_ofNat_of_lt hlt, UInt64.ofNat_toNat]

theorem InRange.timestamp_toInt (h : InRange moment ttlSecs) : (timestamp moment).toInt = moment / 1000000000 := by
  have := h.since
  have := h.fits
  exact Int64.toInt_ofInt_of_le (by omega) (by omega)

theorem InRange.ttlBucket_toInt (h : InRange moment ttlSecs) :
    (ttlBucket moment ttlSecs).toInt = moment / 1000000000 / ttlSecs.toNat := by
  have hpos := h.since
  have hmin : timestamp moment ≠ Int64.minValue := by
    intro heq
    have hsecs := h.timestamp_toInt
    rw [heq, Int64.toInt_minValue] at hsecs
    omega
  rw [ttlBucket, Int64.toInt_div_of_ne_left _ _ hmin, h.timestamp_toInt, h.ttl_toInt,
    Int.tdiv_eq_ediv_of_nonneg (by omega)]

/-- The bucket of the moment, two buckets on. -/
theorem InRange.bucketedExpires_toInt (h : InRange moment ttlSecs) :
    (bucketedExpires (timestamp moment) ttlSecs).toInt =
      (moment / 1000000000 / ttlSecs.toNat + 2) * ttlSecs.toNat := by
  have hpos := h.since
  have hfits := h.fits
  have hsince : 0 ≤ moment / 1000000000 / (ttlSecs.toNat : Int) := Int.ediv_nonneg (by omega) (by omega)
  have hstart : moment / 1000000000 / ttlSecs.toNat * ttlSecs.toNat ≤ moment / 1000000000 :=
    Int.ediv_mul_le _ (by have := h.positive; omega)
  have hbucket : (ttlBucket moment ttlSecs + 2).toInt = moment / 1000000000 / ttlSecs.toNat + 2 := by
    have hle : moment / 1000000000 / (ttlSecs.toNat : Int) ≤ moment / 1000000000 :=
      Int.ediv_le_self _ (by omega)
    have := h.positive
    rw [Int64.toInt_add, h.ttlBucket_toInt, show (2 : Int64).toInt = 2 from rfl]
    exact Int.bmod_eq_of_le (by omega) (by omega)
  have hmul : (moment / 1000000000 / ttlSecs.toNat + 2) * (ttlSecs.toNat : Int) =
      moment / 1000000000 / ttlSecs.toNat * ttlSecs.toNat + 2 * ttlSecs.toNat := Int.add_mul _ _ _
  have hstartpos : 0 ≤ moment / 1000000000 / (ttlSecs.toNat : Int) * ttlSecs.toNat :=
    Int.mul_nonneg hsince (by omega)
  rw [show bucketedExpires (timestamp moment) ttlSecs = (ttlBucket moment ttlSecs + 2) * ttlSecs.toInt64 from rfl,
    Int64.toInt_mul, hbucket, h.ttl_toInt]
  exact Int.bmod_eq_of_le (by omega) (by omega)

/-- More than one ttl is left, and at most two. -/
theorem InRange.margin (h : InRange moment ttlSecs) :
    (ttlSecs.toNat : Int) < (bucketedExpires (timestamp moment) ttlSecs).toInt - (timestamp moment).toInt ∧
      (bucketedExpires (timestamp moment) ttlSecs).toInt - (timestamp moment).toInt ≤ 2 * ttlSecs.toNat := by
  have hpos : 0 < (ttlSecs.toNat : Int) := by
    have := h.positive
    omega
  have hsplit := Int.mul_ediv_add_emod (moment / 1000000000) ttlSecs.toNat
  have hsince := Int.emod_nonneg (moment / 1000000000) (Int.ne_of_gt hpos)
  have hlt := Int.emod_lt_of_pos (moment / 1000000000) hpos
  rw [h.bucketedExpires_toInt, h.timestamp_toInt, Int.add_mul, Int.mul_comm _ (ttlSecs.toNat : Int)]
  omega

/-- Within one bucket all expire together. -/
theorem bucketedExpires_eq (h : ttlBucket moment ttlSecs = ttlBucket later ttlSecs) :
    bucketedExpires (timestamp moment) ttlSecs = bucketedExpires (timestamp later) ttlSecs :=
  congrArg (fun bucket => (bucket + 2) * ttlSecs.toInt64) h

theorem InRange.ttlBucket_le (h : InRange moment ttlSecs) (h' : InRange later ttlSecs) (hle : moment ≤ later) :
    ttlBucket moment ttlSecs ≤ ttlBucket later ttlSecs := by
  have hsecs : moment / 1000000000 ≤ later / 1000000000 := Int.ediv_le_ediv (by omega) hle
  rw [Int64.le_iff_toInt_le, h.ttlBucket_toInt, h'.ttlBucket_toInt]
  exact Int.ediv_le_ediv (by have := h.positive; omega) hsecs

end

namespace PresignRequest

/-- The URL of the local routes that is signed for an expiry. -/
def signedUrl (mac : Mac) (hmacSecret : List UInt8) (expires : Int64) : PresignRequest → String
  | .download key creatorId _ downloadFilename routes =>
    fsSignedUrl routes.scheme routes.authority routes.read key (signRead mac key expires creatorId hmacSecret) expires
      creatorId downloadFilename
  | .upload key creatorId _ routes =>
    fsSignedUrl routes.scheme routes.authority routes.write key (signUpload mac key expires creatorId hmacSecret)
      expires creatorId none

variable {Op : Type} (backends : Backends Op) (mac : Mac) (hmacSecret : List UInt8)

theorem uncached_of_local {request : PresignRequest} {op : Op} (h : request.native backends op = false)
    (moment : Int) : request.uncached backends mac hmacSecret op moment =
      .ok (request.signedUrl mac hmacSecret (bucketedExpires (timestamp moment) request.ttlSecs)) := by
  cases request <;> simp only [native] at h <;>
    simp [uncached, presignDownloadUncached, presignUploadUncached, signedUrl, ttlSecs, h]

/-- A call in one go. The clock is read at `first`, and again at `second` when the URL is not in the cache. What is
given back is the result, the last reading, and the cache. -/
def generate (cache : PresignCache) (op : Op) (request : PresignRequest) (first second : Int) :
    Except String String × Int × PresignCache :=
  let nowBucket := ttlBucket first request.ttlSecs
  match presignCacheHit cache request.cacheKey nowBucket with
  | some url => (.ok url, first, cache)
  | none =>
    match request.uncached backends mac hmacSecret op second with
    | .ok url => (.ok url, second, presignCacheStore cache request.cacheKey url nowBucket)
    | .error e => (.error e, second, cache)

variable {backends mac hmacSecret} {cache : PresignCache} {op : Op} {request : PresignRequest} {first second : Int}

theorem generate_of_hit {url : String}
    (h : presignCacheHit cache request.cacheKey (ttlBucket first request.ttlSecs) = some url) :
    request.generate backends mac hmacSecret cache op first second = (.ok url, first, cache) := by
  simp [generate, h]

variable (mac hmacSecret) in
theorem generate_of_miss (hlocal : request.native backends op = false)
    (h : presignCacheHit cache request.cacheKey (ttlBucket first request.ttlSecs) = none) :
    let url := request.signedUrl mac hmacSecret (bucketedExpires (timestamp second) request.ttlSecs)
    request.generate backends mac hmacSecret cache op first second =
      (.ok url, second, presignCacheStore cache request.cacheKey url (ttlBucket first request.ttlSecs)) := by
  simp [generate, h, uncached_of_local backends mac hmacSecret hlocal]

end PresignRequest

namespace Presigning
variable {Op : Type} (backends : Backends Op) (mac : Mac) (hmacSecret : List UInt8) (s : Presigning Op)

theorem goes_last (clock : Int) (cache : PresignCache) (calls : List (PresignCall Op)) (call : PresignCall Op)
    (phase : PresignPhase) :
    (⟨clock, cache, calls ++ [call]⟩ : Presigning Op).goes calls.length call phase =
      ⟨clock, cache, calls ++ [{ call with phase := phase }]⟩ := by
  simp [goes, List.set_append_right]

theorem passes_step {clock : Int} (hle : s.clock ≤ clock) :
    (system backends mac hmacSecret).step s (.passes clock) { s with clock := clock } := if_pos hle

/-- A call in one go is a run of the process in which only this call takes steps. -/
theorem run_generate {op : Op} {request : PresignRequest} {first second : Int} (hpos : request.ttlSecs ≠ 0)
    (hfirst : s.clock ≤ first) (hsecond : first ≤ second) :
    let (result, last, cache) := request.generate backends mac hmacSecret s.cache op first second
    (system backends mac hmacSecret).Run s ⟨last, cache,
      s.calls ++ [⟨op, request, ttlBucket first request.ttlSecs, .returned result last⟩]⟩ := by
  have hbegun : (system backends mac hmacSecret).Run s ⟨first, s.cache,
      s.calls ++ [⟨op, request, ttlBucket first request.ttlSecs, .begun⟩]⟩ := 
    (System.RunIf.refl.step (passes_step backends mac hmacSecret s hfirst) trivial).step (i := .begins op request) (if_neg hpos) trivial
  cases hhit : presignCacheHit s.cache request.cacheKey (ttlBucket first request.ttlSecs) with
  | some url =>
    rw [PresignRequest.generate_of_hit hhit]
    refine hbegun.step (i := .looks s.calls.length) ?_ trivial
    simp [system, next, hhit, goes_last]
  | none =>
    have hlooks : (system backends mac hmacSecret).Run s ⟨first, s.cache,
        s.calls ++ [⟨op, request, ttlBucket first request.ttlSecs, .missed⟩]⟩ := by
      refine hbegun.step (i := .looks s.calls.length) ?_ trivial
      simp [system, next, hhit, goes_last]
    have hmissed := hlooks.step (passes_step backends mac hmacSecret _ hsecond) trivial
    cases hurl : request.uncached backends mac hmacSecret op second with
    | error e =>
      simp only [PresignRequest.generate, hhit, hurl]
      refine hmissed.step (i := .signs s.calls.length) ?_ trivial
      simp [system, next, hurl, goes_last]
    | ok url =>
      have hsigned : (system backends mac hmacSecret).Run s ⟨second, s.cache,
          s.calls ++ [⟨op, request, ttlBucket first request.ttlSecs, .signed url⟩]⟩ := by
        refine hmissed.step (i := .signs s.calls.length) ?_ trivial
        simp [system, next, hurl, goes_last]
      simp only [PresignRequest.generate, hhit, hurl]
      refine hsigned.step (i := .stores s.calls.length) ?_ trivial
      simp [system, next, goes_last]

end Presigning
/-- A call that is over. -/
structure PresignServed where
  request : PresignRequest
  first : Int
  last : Int
  result : Except String String

/-- The process when no call starts before the one before it is over. -/
structure PresignLog where
  clock : Int
  cache : PresignCache
  served : List PresignServed

inductive PresignEvent (Op : Type) where
  | calls (op : Op) (request : PresignRequest) (first second : Int)
  | clears

/-- The operator of the call leaves it to the local routes, and its readings are in range. -/
def PresignEvent.Local {Op : Type} (backends : Backends Op) : PresignEvent Op → Prop
  | .calls op request first second => request.native backends op = false ∧
    InRange first request.ttlSecs ∧ InRange second request.ttlSecs
  | .clears => True

namespace PresignLog
variable {Op : Type} (backends : Backends Op) (mac : Mac) (hmacSecret : List UInt8) (s : PresignLog)

def next : PresignEvent Op → Option PresignLog
  | .calls op request first second =>
    -- a ttl of 0 is a division by zero
    if request.ttlSecs = 0 then none
    else if s.clock ≤ first ∧ first ≤ second then
      let (result, last, cache) := request.generate backends mac hmacSecret s.cache op first second
      some ⟨last, cache, s.served ++ [⟨request, first, last, result⟩]⟩
    else none
  | .clears => some { s with cache := [] }

def system : System PresignLog (PresignEvent Op) where
  init s := s.cache = [] ∧ s.served = []
  step s event s' := s.next backends mac hmacSecret event = some s'

/-- A cached URL was signed no earlier than its bucket was read, and every call got the URL of its last reading. -/
structure Timely : Prop where
  cached : ∀ entry ∈ s.cache, ∃ (request : PresignRequest) (first signed : Int),
    entry.key = request.cacheKey ∧ entry.bucket = ttlBucket first request.ttlSecs ∧
      entry.url = request.signedUrl mac hmacSecret (bucketedExpires (timestamp signed) request.ttlSecs) ∧
      first ≤ signed ∧ signed ≤ s.clock ∧ InRange first request.ttlSecs ∧ InRange signed request.ttlSecs
  served : ∀ call ∈ s.served, InRange call.last call.request.ttlSecs ∧ call.result =
    .ok (call.request.signedUrl mac hmacSecret (bucketedExpires (timestamp call.last) call.request.ttlSecs))

variable {backends mac hmacSecret s} {s' : PresignLog}

/-- A URL of the bucket that a reading is in was signed in that bucket as well. -/
theorem Timely.hit {request : PresignRequest} {reading : Int} {url : String} (w : s.Timely mac hmacSecret)
    (hhit : presignCacheHit s.cache request.cacheKey (ttlBucket reading request.ttlSecs) = some url)
    (hle : s.clock ≤ reading) (hrange : InRange reading request.ttlSecs) :
    url = request.signedUrl mac hmacSecret (bucketedExpires (timestamp reading) request.ttlSecs) := by
  obtain ⟨asked, first, signed, hkey, hbucket, hurl, hfirst, hsigned, hrange₁, hrange₂⟩ :=
    w.cached _ (mem_of_presignCacheHit hhit)
  obtain rfl := PresignRequest.cacheKey_injective hkey
  dsimp only at hbucket hurl
  have hbefore := hrange₁.ttlBucket_le hrange₂ hfirst
  have hafter := hrange₂.ttlBucket_le hrange (Int.le_trans hsigned hle)
  rw [← hbucket] at hbefore
  rw [hurl, bucketedExpires_eq (Int64.le_antisymm hafter hbefore)]

/-- A later moment, and one more call that got the URL of its last reading. -/
theorem Timely.serve {request : PresignRequest} {first last : Int} {cache : PresignCache}
    (w : s.Timely mac hmacSecret) (hle : s.clock ≤ last) (hrange : InRange last request.ttlSecs)
    (hcache : ∀ entry ∈ cache, entry ∈ s.cache ∨ ∃ first, entry = ⟨request.cacheKey,
      request.signedUrl mac hmacSecret (bucketedExpires (timestamp last) request.ttlSecs),
      ttlBucket first request.ttlSecs⟩ ∧ first ≤ last ∧ InRange first request.ttlSecs) :
    Timely mac hmacSecret ⟨last, cache, s.served ++ [⟨request, first, last,
      .ok (request.signedUrl mac hmacSecret (bucketedExpires (timestamp last) request.ttlSecs))⟩]⟩ where
  cached entry hentry := by
    rcases hcache entry hentry with hold | ⟨first, rfl, hfirst, hrange₁⟩
    · obtain ⟨asked, first, signed, hkey, hbucket, hurl, hfirst, hsigned, hrange₁, hrange₂⟩ := w.cached entry hold
      exact ⟨asked, first, signed, hkey, hbucket, hurl, hfirst, Int.le_trans hsigned hle, hrange₁, hrange₂⟩
    · exact ⟨request, first, last, rfl, rfl, rfl, hfirst, Int.le_refl _, hrange₁, hrange⟩
  served call hcall := by
    rcases List.mem_append.1 hcall with hold | hnew
    · exact w.served call hold
    · obtain rfl := List.mem_singleton.1 hnew
      exact ⟨hrange, rfl⟩

theorem Timely.next {event : PresignEvent Op} (w : s.Timely mac hmacSecret)
    (hnext : s.next backends mac hmacSecret event = some s') (hlocal : event.Local backends) :
    s'.Timely mac hmacSecret := by
  cases event with
  | clears =>
    cases hnext
    exact ⟨fun _ hentry => absurd hentry List.not_mem_nil, w.served⟩
  | calls op request first second =>
    obtain ⟨hop, hrange₁, hrange₂⟩ := hlocal
    obtain ⟨-, hnext⟩ := Option.ite_none_left_eq_some.1 hnext
    obtain ⟨⟨hfirst, hsecond⟩, hnext⟩ := Option.ite_none_right_eq_some.1 hnext
    cases hhit : presignCacheHit s.cache request.cacheKey (ttlBucket first request.ttlSecs) with
    | some url =>
      rw [PresignRequest.generate_of_hit hhit] at hnext
      cases hnext
      obtain rfl := w.hit hhit hfirst hrange₁
      exact w.serve hfirst hrange₁ fun entry hentry => .inl hentry
    | none =>
      rw [PresignRequest.generate_of_miss mac hmacSecret hop hhit] at hnext
      cases hnext
      refine w.serve (Int.le_trans hfirst hsecond) hrange₂ fun entry hentry => ?_
      rcases eq_or_mem_of_mem_presignCacheStore hentry with rfl | hold
      · exact .inr ⟨first, rfl, hsecond, hrange₁⟩
      · exact .inl hold

theorem timely (h : (system backends mac hmacSecret).ReachableIf (fun _ event => event.Local backends) s) :
    s.Timely mac hmacSecret := by
  refine h.invariant ?_ fun s event s' _ w hstep hlocal => w.next hstep hlocal
  rintro s ⟨hcache, hserved⟩
  constructor <;> simp [hcache, hserved]

/-- Every URL given out lasts for more than one ttl and at most two from the last reading of its call on, and calls
with the same arguments that read the clock in one bucket get the same URL. -/
theorem expiry_margin
    (h : (system backends mac hmacSecret).ReachableIf (fun _ event => event.Local backends) s) :
    (∀ call ∈ s.served, ∃ expires : Int64, call.result = .ok (call.request.signedUrl mac hmacSecret expires) ∧
      (call.request.ttlSecs.toNat : Int) < expires.toInt - (timestamp call.last).toInt ∧
      expires.toInt - (timestamp call.last).toInt ≤ 2 * call.request.ttlSecs.toNat) ∧
    ∀ call ∈ s.served, ∀ other ∈ s.served, call.request = other.request →
      (∃ bucket, ∀ reading ∈ [call.first, call.last, other.first, other.last],
        ttlBucket reading call.request.ttlSecs = bucket) → call.result = other.result := by
  have w := timely h
  refine ⟨fun call hcall => ?_, fun call hcall other hother hrequest ⟨bucket, hbucket⟩ => ?_⟩
  · obtain ⟨hrange, hresult⟩ := w.served call hcall
    exact ⟨_, hresult, hrange.margin⟩
  · have hsame : ttlBucket call.last call.request.ttlSecs = ttlBucket other.last call.request.ttlSecs :=
      (hbucket _ (by simp)).trans (hbucket _ (by simp)).symm
    rw [(w.served call hcall).2, (w.served other hother).2, ← hrequest, bucketedExpires_eq hsame]

/-- A store without native presign. -/
private def disk : Backends Unit where
  capability _ := ⟨false, false, false⟩
  presignRead _ _ _ _ _ := .error "unsupported"
  presignWrite _ _ _ _ := .error "unsupported"

/-- A download for a quarter of an hour. -/
private def picture : PresignRequest := .download "ada/cat" "ada" 900 none ⟨"h", "http", "/storage", "/upload"⟩

/-- The URL is signed, found a minute later, and signed again at the end of the bucket. -/
private def asks : List (PresignEvent Unit) :=
  [.calls () picture 0 1000000000, .calls () picture 60000000000 60000000000, .clears,
    .calls () picture 899000000000 899000000000]

theorem expiry_margin_asks :
    ∃ s : PresignLog, (system disk (fun _ message => message) []).ReachableIf (fun _ event => event.Local disk) s ∧
      s.served.length = 3 ∧ ∀ call ∈ s.served, ∃ expires : Int64,
        call.result = .ok (call.request.signedUrl (fun _ message => message) [] expires) ∧
        (call.request.ttlSecs.toNat : Int) < expires.toInt - (timestamp call.last).toInt ∧
        expires.toInt - (timestamp call.last).toInt ≤ 2 * call.request.ttlSecs.toNat := by
  obtain ⟨s, hplay, hserved⟩ : ∃ s, System.play (next disk (fun _ message => message) []) (fun _ _ => True)
      ⟨0, [], []⟩ asks = some s ∧ s.served.length = 3 := ⟨_, rfl, rfl⟩
  have hrange (moment : Int) (hpos : 0 ≤ moment) (hlt : moment < 900000000000) :
      InRange moment picture.ttlSecs :=
    ⟨by decide, hpos, by rw [show picture.ttlSecs.toNat = 900 from rfl]; omega⟩
  have hlocal : ∀ event ∈ asks, event.Local disk := by
    simp only [asks, List.forall_mem_cons]
    exact ⟨⟨rfl, hrange _ (by decide) (by decide), hrange _ (by decide) (by decide)⟩,
      ⟨rfl, hrange _ (by decide) (by decide), hrange _ (by decide) (by decide)⟩, trivial,
      ⟨rfl, hrange _ (by decide) (by decide), hrange _ (by decide) (by decide)⟩, nofun⟩
  have hrun : (system disk (fun _ message => message) []).ReachableIf (fun _ event => event.Local disk) s :=
    (System.RunIf.play (fun _ _ _ hnext => hnext) (fun event hevent _ _ => hlocal event hevent) hplay).reachableIf
      (.init ⟨rfl, rfl⟩)
  exact ⟨s, hrun, hserved, (expiry_margin hrun).1⟩

end PresignLog
end Fusions.Storage
