import Fusions.Hetuflow.Core.JsonText
import Fusions.Storage.Encoding

/-! What a token of the signed local routes is accepted for. -/
namespace Fusions.Storage
open Fusions.Library

def hmacVerify (mac : Mac) (message token : String) (hmacSecret : List UInt8) : Bool :=
  match hexDecode token.toUTF8.toList with
  | some tokenBytes => tokenBytes == mac hmacSecret message.toUTF8.toList
  | none => false

def verifyHmac (mac : Mac) (now : Int64) (key : String) (expires : Int64) (token creatorId : String)
    (hmacSecret : List UInt8) : Bool :=
  if now > expires then false else hmacVerify mac s!"{creatorId}:{key}:{expires}" token hmacSecret

def verifyUploadHmac (mac : Mac) (now : Int64) (key : String) (expires : Int64) (token creatorId : String)
    (hmacSecret : List UInt8) : Bool :=
  if now > expires then false else hmacVerify mac s!"PUT:{creatorId}:{key}:{expires}" token hmacSecret

theorem hexDecode_hmacSign (mac : Mac) (message : String) (hmacSecret : List UInt8) :
    hexDecode (hmacSign mac message hmacSecret).toUTF8.toList = some (mac hmacSecret message.toUTF8.toList) := by
  rw [hmacSign, utf8_join, List.flatMap_map]
  simp only [hexEncode_bytes fun n hn => (lowerDigit hn).1]
  refine hexDecode_flatMap (fun byte => ?_) (fun byte => ?_) _
  · have hlt : byte.toNat / 16 < 16 := by
      have := byte.toNat_lt
      omega
    rw [(lowerDigit hlt).2, ofNat_high]
  · rw [(lowerDigit (Nat.mod_lt _ (by decide))).2, ofNat_low]

/-- What is signed is verified as the messages agree. -/
theorem hmacVerify_hmacSign {mac : Mac} {hmacSecret : List UInt8} (hinj : Function.Injective (mac hmacSecret))
    (message signed : String) :
    hmacVerify mac message (hmacSign mac signed hmacSecret) hmacSecret = true ↔ signed = message := by
  rw [hmacVerify, hexDecode_hmacSign]
  simp only [beq_iff_eq]
  exact ⟨fun h => utf8_injective (hinj h), fun h => by rw [h]⟩

inductive FsOperation where
  | read
  | upload
  deriving DecidableEq, Repr

/-- What a signed URL of the local routes is for. -/
structure FsGrant where
  operation : FsOperation
  key : String
  creatorId : String
  expires : Int64
  deriving DecidableEq

namespace FsGrant
variable (mac : Mac) (hmacSecret : List UInt8) (now : Int64) (grant : FsGrant)

def message : String :=
  match grant.operation with
  | .read => s!"{grant.creatorId}:{grant.key}:{grant.expires}"
  | .upload => s!"PUT:{grant.creatorId}:{grant.key}:{grant.expires}"

def token : String :=
  match grant.operation with
  | .read => signRead mac grant.key grant.expires grant.creatorId hmacSecret
  | .upload => signUpload mac grant.key grant.expires grant.creatorId hmacSecret

def accepts (token : String) : Bool :=
  match grant.operation with
  | .read => verifyHmac mac now grant.key grant.expires token grant.creatorId hmacSecret
  | .upload => verifyUploadHmac mac now grant.key grant.expires token grant.creatorId hmacSecret

theorem token_eq : grant.token mac hmacSecret = hmacSign mac grant.message hmacSecret := by
  obtain ⟨_ | _, _, _, _⟩ := grant <;> rfl

theorem accepts_eq (token : String) : grant.accepts mac hmacSecret now token =
    if now > grant.expires then false else hmacVerify mac grant.message token hmacSecret := by
  obtain ⟨_ | _, _, _, _⟩ := grant <;> rfl

/-- What the messages of an operation and a creator begin with. -/
def principal (operation : FsOperation) (creatorId : String) : List Char :=
  match operation with
  | .read => creatorId.toList
  | .upload => 'P' :: 'U' :: 'T' :: ':' :: creatorId.toList

theorem message_toList : grant.message.toList =
    principal grant.operation grant.creatorId ++ ':' :: grant.key.toList ++ ':' :: (toString grant.expires.toInt).toList := by
  obtain ⟨_ | _, _, _, _⟩ := grant <;> simp [message, principal, String.toList_append] <;> rfl

variable {mac hmacSecret now grant} {grant' : FsGrant}

/-- A token is accepted for what has its message and has not expired. -/
theorem accepts_token (hinj : Function.Injective (mac hmacSecret)) :
    grant'.accepts mac hmacSecret now (grant.token mac hmacSecret) = true ↔
      now ≤ grant'.expires ∧ grant.message = grant'.message := by
  rw [accepts_eq, token_eq]
  split
  · next hlt => simp [Int64.not_le.2 hlt]
  · next hle => simp [hmacVerify_hmacSign hinj, Int64.not_lt.1 hle]

/-- The expiry is what follows the last colon. -/
theorem message_eq : grant.message = grant'.message ↔
    principal grant.operation grant.creatorId ++ ':' :: grant.key.toList =
        principal grant'.operation grant'.creatorId ++ ':' :: grant'.key.toList ∧
      grant.expires = grant'.expires := by
  have hcolon (n : Int) : ':' ∉ (toString n).toList := fun hmem => by
    rcases Hetuflow.Json.int_chars hmem with h | h <;> exact absurd h (by decide)
  rw [← String.toList_inj, message_toList, message_toList]
  constructor
  · intro h
    obtain ⟨hparts, hexpires⟩ := last_readsBack (hcolon _) (hcolon _) h
    exact ⟨hparts, Int64.toInt_inj.1 (Hetuflow.Json.int_text_injective hexpires)⟩
  · rintro ⟨hparts, hexpires⟩
    rw [hparts, hexpires]

/-- Without a colon in creator and key, only the read itself has its message. -/
theorem eq_of_message_eq (hread : grant.operation = .read) (hcreator : ':' ∉ grant.creatorId.toList)
    (hkey : ':' ∉ grant.key.toList) (h : grant.message = grant'.message) : grant' = grant := by
  obtain ⟨hparts, hexpires⟩ := message_eq.1 h
  rw [hread] at hparts
  obtain ⟨hprincipal, -, hkey'⟩ := (List.append_cons_inj_of_notMem hcreator hkey).1 hparts
  obtain ⟨_, key, creatorId, expires⟩ := grant
  obtain ⟨operation', key', creatorId', expires'⟩ := grant'
  dsimp only at hread hcreator hprincipal hkey' hexpires
  subst hread
  cases operation' with
  | read =>
    obtain rfl := String.toList_inj.1 hprincipal
    obtain rfl := String.toList_inj.1 hkey'
    rw [hexpires]
  | upload => exact absurd (by rw [hprincipal]; simp [principal]) hcreator

/-- Any other place for the first colon gives another read with the same message. -/
theorem other_read {u v : List Char}
    (hparts : principal grant.operation grant.creatorId ++ ':' :: grant.key.toList = u ++ ':' :: v)
    (hne : grant.operation = .read → u ≠ grant.creatorId.toList) :
    ∃ grant' : FsGrant, grant'.expires = grant.expires ∧ grant.message = grant'.message ∧ grant' ≠ grant := by
  refine ⟨⟨.read, String.ofList v, String.ofList u, grant.expires⟩, rfl, message_eq.2 ⟨?_, rfl⟩, ?_⟩
  · rw [hparts]
    simp [principal]
  · intro heq
    have hcreator := congrArg (·.creatorId.toList) heq
    exact hne (congrArg FsGrant.operation heq).symm (by simpa using hcreator)

/-- Every other grant shares its message. -/
theorem exists_other (h : ¬ (grant.operation = .read ∧ ':' ∉ grant.creatorId.toList ∧ ':' ∉ grant.key.toList)) :
    ∃ grant' : FsGrant, grant'.expires = grant.expires ∧ grant.message = grant'.message ∧ grant' ≠ grant := by
  cases hop : grant.operation with
  | upload =>
    refine other_read (u := ['P', 'U', 'T']) (v := grant.creatorId.toList ++ ':' :: grant.key.toList) ?_ ?_
    · simp [hop, principal]
    · simp [hop]
  | read =>
    by_cases hcreator : ':' ∈ grant.creatorId.toList
    · obtain ⟨u, v, huv⟩ := List.append_of_mem hcreator
      refine other_read (u := u) (v := v ++ ':' :: grant.key.toList) ?_ fun _ heq => ?_
      · simp [hop, principal, huv]
      · simp [huv] at heq
    · have hkey : ':' ∈ grant.key.toList := by
        by_cases hkey : ':' ∈ grant.key.toList
        · exact hkey
        · exact absurd ⟨hop, hcreator, hkey⟩ h
      obtain ⟨u, v, huv⟩ := List.append_of_mem hkey
      refine other_read (u := grant.creatorId.toList ++ ':' :: u) (v := v) ?_ fun _ heq => ?_
      · simp [hop, principal, huv]
      · simp at heq

/-- The messages of an operation and a creator begin with the ones of another. -/
def Begins (operation : FsOperation) (creatorId : String) (operation' : FsOperation) (creatorId' : String) : Prop :=
  principal operation creatorId ++ [':'] <+: principal operation' creatorId' ++ [':']

/-- Two operations and creators share a message when one of them begins with the other. -/
theorem begins_of_message_eq (h : grant.message = grant'.message) :
    Begins grant.operation grant.creatorId grant'.operation grant'.creatorId ∨
      Begins grant'.operation grant'.creatorId grant.operation grant.creatorId := by
  obtain ⟨hparts, -⟩ := message_eq.1 h
  have hstart (u v : List Char) : u ++ [':'] <+: u ++ ':' :: v := ⟨v, by simp⟩
  refine List.prefix_or_prefix_of_prefix (hstart _ grant.key.toList) ?_
  rw [hparts]
  exact hstart _ _

/-- Where one begins with the other, a key and an empty key give the same message. -/
theorem message_of_begins {operation operation' : FsOperation} {creatorId creatorId' : String} (expires : Int64)
    (h : Begins operation creatorId operation' creatorId') :
    ∃ key, message ⟨operation, key, creatorId, expires⟩ = message ⟨operation', "", creatorId', expires⟩ := by
  obtain ⟨key, hkey⟩ := h
  refine ⟨String.ofList key, message_eq.2 ⟨?_, rfl⟩⟩
  simpa using hkey

theorem eq_of_same (hop : grant.operation = grant'.operation) (hcreator : grant.creatorId = grant'.creatorId)
    (h : grant.message = grant'.message) : grant' = grant := by
  obtain ⟨hparts, hexpires⟩ := message_eq.1 h
  rw [hop, hcreator] at hparts
  have hkey := String.toList_inj.1 (List.cons.inj (List.append_cancel_left hparts)).2
  obtain ⟨_, _, _, _⟩ := grant
  obtain ⟨_, _, _, _⟩ := grant'
  dsimp only at hop hcreator hkey hexpires
  rw [hop, hcreator, hkey, hexpires]

/-- A token is accepted for what it was signed for only as long as it is a read without a colon in creator and key, or
has expired; and two operations and creators keep their tokens apart as long as none begins with the other. -/
theorem token_binds (hinj : Function.Injective (mac hmacSecret)) (now : Int64) :
    (∀ grant : FsGrant, (∀ grant' : FsGrant,
        grant'.accepts mac hmacSecret now (grant.token mac hmacSecret) = true → grant' = grant) ↔
      grant.expires < now ∨
        (grant.operation = .read ∧ ':' ∉ grant.creatorId.toList ∧ ':' ∉ grant.key.toList)) ∧
    ∀ (operation operation' : FsOperation) (creatorId creatorId' : String),
      (∀ grant grant' : FsGrant, grant.operation = operation → grant.creatorId = creatorId →
        grant'.operation = operation' → grant'.creatorId = creatorId' →
        grant'.accepts mac hmacSecret now (grant.token mac hmacSecret) = true → grant' = grant) ↔
      (operation = operation' ∧ creatorId = creatorId') ∨
        (¬ Begins operation creatorId operation' creatorId' ∧ ¬ Begins operation' creatorId' operation creatorId) := by
  simp only [accepts_token hinj, and_imp]
  refine ⟨fun grant => ⟨fun h => ?_, fun h grant' hnow hmessage => ?_⟩,
    fun operation operation' creatorId creatorId' => ⟨fun h => ?_, ?_⟩⟩
  · by_cases hcolon : grant.operation = .read ∧ ':' ∉ grant.creatorId.toList ∧ ':' ∉ grant.key.toList
    · exact .inr hcolon
    · obtain ⟨grant', hexpires, hmessage, hne⟩ := exists_other hcolon
      refine .inl (Int64.not_le.1 fun hnow => hne (h grant' ?_ hmessage))
      rwa [hexpires]
  · rcases h with hexpired | ⟨hread, hcreator, hkey⟩
    · rw [(message_eq.1 hmessage).2] at hexpired
      exact absurd hnow (Int64.not_le.2 hexpired)
    · exact eq_of_message_eq hread hcreator hkey hmessage
  · by_cases hsame : operation = operation' ∧ creatorId = creatorId'
    · exact .inl hsame
    · right
      constructor
      · intro hbegins
        obtain ⟨key, hmessage⟩ := message_of_begins now hbegins
        have heq := h ⟨operation, key, creatorId, now⟩ ⟨operation', "", creatorId', now⟩ rfl rfl rfl rfl
          (Int64.le_refl now) hmessage
        exact hsame ⟨congrArg FsGrant.operation heq.symm, congrArg FsGrant.creatorId heq.symm⟩
      · intro hbegins
        obtain ⟨key, hmessage⟩ := message_of_begins now hbegins
        have heq := h ⟨operation, "", creatorId, now⟩ ⟨operation', key, creatorId', now⟩ rfl rfl rfl rfl
          (Int64.le_refl now) hmessage.symm
        exact hsame ⟨congrArg FsGrant.operation heq.symm, congrArg FsGrant.creatorId heq.symm⟩
  · rintro (⟨rfl, rfl⟩ | ⟨hleft, hright⟩) grant grant' rfl rfl hop hcreator - hmessage
    · exact eq_of_same hop.symm hcreator.symm hmessage
    · subst hop hcreator
      rcases begins_of_message_eq hmessage with hbegins | hbegins
      · exact absurd hbegins hleft
      · exact absurd hbegins hright

private def goldenSecret : List UInt8 := "golden-secret".toUTF8.toList

private def goldenRead : FsGrant := ⟨.read, "creator-1/knowledge/asset-1", "creator-1", 4102444800⟩

private def goldenDigest : List UInt8 :=
  [0xd9, 0xda, 0x5d, 0xe5, 0xc0, 0x96, 0x2f, 0xdf, 0x7c, 0x29, 0x0b, 0x00, 0x25, 0x7a, 0x02, 0x6b, 0x21, 0x6c,
    0xee, 0x83, 0x91, 0x2e, 0x21, 0xbb, 0x3f, 0x8c, 0x22, 0xb1, 0x82, 0x6b, 0x0e, 0xa1]

/-- The digest of the golden test, and injective. -/
private def goldenMac : Mac := fun _ message =>
  if message = goldenRead.message.toUTF8.toList then goldenDigest else List.replicate 33 0 ++ message

private theorem goldenMac_injective : Function.Injective (goldenMac goldenSecret) := by
  intro m m' h
  have hlong (x : List UInt8) : goldenDigest ≠ List.replicate 33 0 ++ x := fun heq => by
    have hlength := congrArg List.length heq
    rw [List.length_append, List.length_replicate, show goldenDigest.length = 32 from rfl] at hlength
    omega
  unfold goldenMac at h
  by_cases hm : m = goldenRead.message.toUTF8.toList <;> by_cases hm' : m' = goldenRead.message.toUTF8.toList
  · rw [hm, hm']
  · rw [if_pos hm, if_neg hm'] at h
    exact absurd h (hlong _)
  · rw [if_neg hm, if_pos hm'] at h
    exact absurd h.symm (hlong _)
  · rw [if_neg hm, if_neg hm'] at h
    exact List.append_cancel_left h

/-- The token of the golden test is accepted for nothing else. -/
theorem token_binds_golden :
    goldenRead.token goldenMac goldenSecret = "d9da5de5c0962fdf7c290b00257a026b216cee83912e21bb3f8c22b1826b0ea1" ∧
      ∀ grant' : FsGrant, grant'.accepts goldenMac goldenSecret 0 (goldenRead.token goldenMac goldenSecret) = true →
        grant' = goldenRead := by
  have hcolon : ':' ∉ goldenRead.creatorId.toList ∧ ':' ∉ goldenRead.key.toList := by decide
  have hbinds := ((token_binds goldenMac_injective 0).1 goldenRead).2 (.inr ⟨rfl, hcolon⟩)
  have htoken : goldenRead.token goldenMac goldenSecret =
      "d9da5de5c0962fdf7c290b00257a026b216cee83912e21bb3f8c22b1826b0ea1" := by
    rw [token_eq, hmacSign, goldenMac, if_pos rfl]
    rfl
  exact ⟨htoken, hbinds⟩

/-- The token of an upload reads what is named after its creator. -/
theorem upload_token_reads : ¬ ∀ (mac : Mac) (hmacSecret : List UInt8), Function.Injective (mac hmacSecret) →
    ∀ (now : Int64) (grant grant' : FsGrant),
      grant'.accepts mac hmacSecret now (grant.token mac hmacSecret) = true → grant' = grant := by
  intro h
  have hinj : Function.Injective ((fun _ message => message : Mac) []) := fun _ _ => id
  have haccepts : (⟨.read, "ada:cat", "PUT", 4102444800⟩ : FsGrant).accepts (fun _ message => message) [] 0
      (token (fun _ message => message) [] ⟨.upload, "cat", "ada", 4102444800⟩) = true :=
    (accepts_token hinj).2 ⟨by decide, message_eq.2 ⟨by decide, rfl⟩⟩
  exact absurd (h _ _ hinj 0 _ _ haccepts) (by decide)

end FsGrant

end Fusions.Storage
