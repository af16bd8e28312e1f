import Fusions.Library.Find
import Fusions.Library.Regex

/-! Connection strings as they are shown: `://<username>:<password>@` stands for the user and the password. -/
namespace Fusions.Sql
open Fusions.Library

/-- The same type is in both crates, the one of SQL and the common one. -/
structure UriString where
  value : String

def char (c : Char) : Regex Char := .one (· == c)

/-- `.`, any character but a line feed. -/
def dot : Char → Bool := (· != '\n')

/-- `://(.+):(.+)@`. -/
def uriPattern : Regex Char :=
  .seq (char ':') (.seq (char '/') (.seq (char '/') (.seq (.plus dot) (.seq (char ':') (.seq (.plus dot) (char '@'))))))

def replaceUriUsernamePassword (v : String) : String :=
  String.ofList (uriPattern.replace v.toList "://<username>:<password>@".toList)

namespace UriString
variable (uri : UriString)

def toSensitive : String := replaceUriUsernamePassword uri.value

def display : String := uri.toSensitive

/-- `{:?}`, or `{:#?}` where it is alternate; `debugStr` is the `Debug` of a string. -/
def debug (debugStr : String → String) (alternate : Bool) : String :=
  if alternate then "UriString(\n    " ++ debugStr uri.display ++ ",\n)"
  else "UriString(" ++ debugStr uri.display ++ ")"

def serialize {Result : Type} (serializeStr : String → Result) : Result :=
  serializeStr (replaceUriUsernamePassword uri.value)

end UriString

/-- Two connection strings that are shown alike everywhere. -/
structure ShownAlike (uri uri' : UriString) : Prop where
  toSensitive : uri.toSensitive = uri'.toSensitive
  display : uri.display = uri'.display
  debug : ∀ debugStr alternate, uri.debug debugStr alternate = uri'.debug debugStr alternate
  serialize : ∀ {Result : Type} (serializeStr : String → Result),
    uri.serialize serializeStr = uri'.serialize serializeStr

/-- What stands in front of the '@'. -/
def beforeAt (scheme user password : String) : String := scheme ++ "://" ++ user ++ ":" ++ password

def connection (scheme user password host : String) : UriString := ⟨beforeAt scheme user password ++ "@" ++ host⟩

/-- A text that is replaced in a connection string: behind the first "://" of its last line stands a ':' that has
characters on both sides. -/
structure Masked (text front : List Char) : Prop where
  parts : ∃ lines line user pass, front = lines ++ line ∧ text = front ++ (':' :: '/' :: '/' :: (user ++ ':' :: pass)) ∧
    (∀ c ∈ lines.getLast?, c = '\n') ∧ '\n' ∉ line ∧ ¬[':', '/', '/'] <:+: line ∧ '\n' ∉ user ∧ '\n' ∉ pass ∧
    user ≠ [] ∧ pass ≠ []

/-- When connection strings do not tell the password, and that others are shown as they are. -/
structure MasksExactly (scheme user host : String) : Prop where
  alike_iff : ∀ password password', '@' ∉ scheme.toList → '@' ∉ user.toList → '@' ∉ host.toList →
    '@' ∉ password.toList → '@' ∉ password'.toList → password ≠ "" → password' ≠ "" →
    (ShownAlike (connection scheme user password host) (connection scheme user password' host) ↔
      password = password' ∨ ∃ front, Masked (beforeAt scheme user password).toList front ∧
        Masked (beforeAt scheme user password').toList front)
  unchanged : ∀ uri : UriString, '@' ∉ uri.value.toList → uri.toSensitive = uri.value ∧ uri.display = uri.value ∧
    (∀ debugStr, uri.debug debugStr false = "UriString(" ++ debugStr uri.value ++ ")") ∧
    ∀ {Result : Type} (serializeStr : String → Result), uri.serialize serializeStr = serializeStr uri.value

section
variable {text front host w rest : List Char}

/-- What a `.+` matches. -/
def IsPart (part : List Char) : Prop := part ≠ [] ∧ '\n' ∉ part

theorem matches_char_seq {c : Char} {b : Regex Char} :
    (Regex.seq (char c) b).Matches w ↔ ∃ v, b.Matches v ∧ w = c :: v := by
  rw [Regex.matches_seq_iff]
  constructor
  · rintro ⟨u, v, hu, hv, rfl⟩
    obtain ⟨d, hd, rfl⟩ := Regex.matches_one_iff.1 hu
    obtain rfl := beq_iff_eq.1 hd
    exact ⟨v, hv, rfl⟩
  · rintro ⟨v, hv, rfl⟩
    exact ⟨[c], v, .one (beq_self_eq_true c), hv, rfl⟩

theorem matches_dots_iff : (Regex.plus dot).Matches w ↔ IsPart w := by
  rw [Regex.matches_plus_iff]
  refine and_congr_right fun _ => ⟨fun h hmem => ?_, fun h c hc => bne_iff_ne.2 ?_⟩
  · exact absurd (h '\n' hmem) (by decide)
  · rintro rfl
    exact h hc

theorem matches_dots_seq {b : Regex Char} :
    (Regex.seq (.plus dot) b).Matches w ↔ ∃ part v, IsPart part ∧ b.Matches v ∧ w = part ++ v := by
  rw [Regex.matches_seq_iff]
  simp only [matches_dots_iff]

theorem matches_uriPattern : uriPattern.Matches w ↔ ∃ user pass, IsPart user ∧ IsPart pass ∧
    w = ':' :: '/' :: '/' :: (user ++ ':' :: (pass ++ ['@'])) := by
  constructor
  · intro h
    obtain ⟨_, hcolon, rfl⟩ := matches_char_seq.1 h
    obtain ⟨_, hslash, rfl⟩ := matches_char_seq.1 hcolon
    obtain ⟨_, hslashes, rfl⟩ := matches_char_seq.1 hslash
    obtain ⟨user, _, huser, hbetween, rfl⟩ := matches_dots_seq.1 hslashes
    obtain ⟨_, hbehind, rfl⟩ := matches_char_seq.1 hbetween
    obtain ⟨pass, _, hpass, hlast, rfl⟩ := matches_dots_seq.1 hbehind
    obtain ⟨c, hc, rfl⟩ := Regex.matches_one_iff.1 hlast
    obtain rfl := beq_iff_eq.1 hc
    exact ⟨user, pass, huser, hpass, rfl⟩
  · rintro ⟨user, pass, huser, hpass, rfl⟩
    have hlast : (char '@').Matches ['@'] := .one rfl
    have hpass := matches_dots_seq.2 ⟨pass, _, hpass, hlast, rfl⟩
    have hcolon : (Regex.seq (char ':') (.seq (.plus dot) (char '@'))).Matches (':' :: (pass ++ ['@'])) :=
      matches_char_seq.2 ⟨_, hpass, rfl⟩
    have huser := matches_dots_seq.2 ⟨user, _, huser, hcolon, rfl⟩
    exact matches_char_seq.2 ⟨_, matches_char_seq.2 ⟨_, matches_char_seq.2 ⟨_, huser, rfl⟩, rfl⟩, rfl⟩

theorem exists_lastLine (s : List Char) :
    ∃ lines line, s = lines ++ line ∧ (∀ c ∈ lines.getLast?, c = '\n') ∧ '\n' ∉ line := by
  induction s with
  | nil => exact ⟨[], [], rfl, nofun, List.not_mem_nil⟩
  | cons c s ih =>
    obtain ⟨lines, line, rfl, hlines, hline⟩ := ih
    cases lines with
    | cons d lines => exact ⟨c :: d :: lines, line, rfl, by rwa [List.getLast?_cons_cons], hline⟩
    | nil =>
      by_cases hc : c = '\n'
      · refine ⟨[c], line, rfl, fun d hd => ?_, hline⟩
        rw [← hc]
        exact (Option.some.inj hd).symm
      · exact ⟨[], c :: line, rfl, nofun, fun hmem => (List.mem_cons.1 hmem).elim (Ne.symm hc) hline⟩

/-- A match ends at the '@', and begins behind no other "://" of its line. -/
theorem masked_of_foundAt (htext : '@' ∉ text) (hhost : '@' ∉ host)
    (h : Regex.FoundAt uriPattern (text ++ '@' :: host) front w rest) : rest = host ∧ Masked text front := by
  obtain ⟨user, pass, huser, hpass, rfl⟩ := matches_uriPattern.1 h.isMatch
  have hsplit : text ++ '@' :: host = (front ++ (':' :: '/' :: '/' :: (user ++ ':' :: pass))) ++ '@' :: rest := by
    rw [h.eq]
    simp only [List.append_assoc, List.cons_append, List.nil_append]
  obtain ⟨rfl, -, rfl⟩ := (List.append_cons_inj_of_notMem htext hhost).1 hsplit
  obtain ⟨lines, line, rfl, hlines, hline⟩ := exists_lastLine front
  refine ⟨rfl, lines, line, user, pass, rfl, rfl, hlines, hline, ?_, huser.2, hpass.2, huser.1, hpass.1⟩
  rintro ⟨a, b, rfl⟩
  have hearlier : IsPart (b ++ ':' :: '/' :: '/' :: user) := by
    refine ⟨List.append_ne_nil_of_right_ne_nil b (List.cons_ne_nil _ _), fun hmem => ?_⟩
    rcases List.mem_append.1 hmem with hmem | hmem
    · exact hline (List.mem_append_right _ hmem)
    · simp only [List.mem_cons] at hmem
      exact huser.2 (by simpa using hmem)
  have hle := h.first (lines ++ a) (':' :: '/' :: '/' :: ((b ++ ':' :: '/' :: '/' :: user) ++ ':' :: (pass ++ ['@'])))
    host (by simp) (matches_uriPattern.2 ⟨_, pass, hearlier, hpass, rfl⟩)
  simp only [List.length_append, List.length_cons] at hle
  omega

theorem lastLine_unique {lines line lines' line' : List Char} (h : lines ++ line = lines' ++ line')
    (hlines : ∀ c ∈ lines.getLast?, c = '\n') (hlines' : ∀ c ∈ lines'.getLast?, c = '\n') (hline : '\n' ∉ line)
    (hline' : '\n' ∉ line') : lines = lines' ∧ line = line' := by
  have hempty {lines more line : List Char} (hend : ∀ c ∈ (lines ++ more).getLast?, c = '\n')
      (hclean : '\n' ∉ more ++ line) : more = [] := by
    cases hlast : more.getLast? with
    | none => exact List.getLast?_eq_none_iff.1 hlast
    | some c =>
      have hc := hend c (by rw [List.getLast?_append, hlast]; rfl)
      have hmem := List.mem_of_getLast? hlast
      rw [hc] at hmem
      exact absurd (List.mem_append_left line hmem) hclean
  obtain ⟨more, rfl, rfl⟩ | ⟨more, rfl, rfl⟩ := List.append_eq_append_iff.1 h
  · obtain rfl := hempty hlines' hline
    simp
  · obtain rfl := hempty hlines hline'
    simp

/-- Only one text is in front of what is masked. -/
theorem Masked.unique {front' : List Char} (h : Masked text front) (h' : Masked text front') : front = front' := by
  obtain ⟨lines, line, user, pass, rfl, rfl, hlines, hline, hfirst, huser, hpass, -, -⟩ := h.parts
  obtain ⟨lines', line', user', pass', rfl, heq, hlines', hline', hfirst', huser', hpass', -, -⟩ := h'.parts
  have hclean {line user pass : List Char} (hline : '\n' ∉ line) (huser : '\n' ∉ user) (hpass : '\n' ∉ pass) :
      '\n' ∉ line ++ ([':', '/', '/'] ++ (user ++ ':' :: pass)) := by
    simp [hline, huser, hpass]
  have hunbordered : Unbordered [':', '/', '/'] := unbordered_head (by decide)
  rw [List.append_assoc, List.append_assoc] at heq
  obtain ⟨rfl, hsame⟩ := lastLine_unique heq hlines hlines' (hclean hline huser hpass) (hclean hline' huser' hpass')
  have hat := hunbordered.foundAt hfirst (user ++ ':' :: pass)
  have hat' := hunbordered.foundAt hfirst' (user' ++ ':' :: pass')
  have hle := hat.first line' (user' ++ ':' :: pass') hsame
  have hle' := hat'.first line (user ++ ':' :: pass) hsame.symm
  rw [(List.append_inj hsame (Nat.le_antisymm hle hle')).1]

theorem search_masked (htext : '@' ∉ text) (hhost : '@' ∉ host) (h : Masked text front) :
    uriPattern.search (text ++ '@' :: host) = some (front, host) := by
  obtain ⟨lines, line, user, pass, hfront, rfl, -, -, -, huser, hpass, hne, hne'⟩ := h.parts
  obtain ⟨-, hno⟩ | ⟨front', w, rest, hsearch, hfound⟩ := Regex.search_cases uriPattern
    ((front ++ ':' :: '/' :: '/' :: (user ++ ':' :: pass)) ++ '@' :: host)
  · refine absurd (matches_uriPattern.2 ⟨user, pass, ⟨hne, huser⟩, ⟨hne', hpass⟩, rfl⟩) (hno front _ host ?_)
    simp
  · obtain ⟨rfl, hmasked⟩ := masked_of_foundAt htext hhost hfound
    rw [hsearch, h.unique hmasked]

theorem search_none (htext : '@' ∉ text) (hhost : '@' ∉ host) (h : ∀ front, ¬Masked text front) :
    uriPattern.search (text ++ '@' :: host) = none := by
  obtain ⟨hsearch, -⟩ | ⟨front, w, rest, -, hfound⟩ := Regex.search_cases uriPattern (text ++ '@' :: host)
  · exact hsearch
  · exact absurd (masked_of_foundAt htext hhost hfound).2 (h front)

theorem replacement_matches : uriPattern.Matches "://<username>:<password>@".toList :=
  matches_uriPattern.2 ⟨"<username>".toList, "<password>".toList, ⟨by decide, by decide⟩, ⟨by decide, by decide⟩,
    by decide⟩

theorem replace_masked (htext : '@' ∉ text) (hhost : '@' ∉ host) (h : Masked text front) (replacement : List Char) :
    uriPattern.replace (text ++ '@' :: host) replacement = front ++ (replacement ++ host) := by
  rw [Regex.replace, search_masked htext hhost h]

theorem replace_none (htext : '@' ∉ text) (hhost : '@' ∉ host) (h : ∀ front, ¬Masked text front)
    (replacement : List Char) : uriPattern.replace (text ++ '@' :: host) replacement = text ++ '@' :: host := by
  rw [Regex.replace, search_none htext hhost h]

/-- What is masked is not shown as what is not. -/
theorem not_shown {text' : List Char} (htext : '@' ∉ text') (hhost : '@' ∉ host) (h : ∀ front, ¬Masked text' front) :
    front ++ ("://<username>:<password>@".toList ++ host) ≠ text' ++ '@' :: host := by
  intro heq
  obtain ⟨-, hno⟩ | ⟨front', w, rest, -, hfound⟩ := Regex.search_cases uriPattern (text' ++ '@' :: host)
  · exact hno front _ host heq.symm replacement_matches
  · exact h front' (masked_of_foundAt htext hhost hfound).2

/-- Two texts in front of an '@' are shown alike when they are one, or both are masked behind the same text. -/
theorem replace_eq_iff {text' : List Char} (htext : '@' ∉ text) (htext' : '@' ∉ text') (hhost : '@' ∉ host) :
    uriPattern.replace (text ++ '@' :: host) "://<username>:<password>@".toList =
        uriPattern.replace (text' ++ '@' :: host) "://<username>:<password>@".toList ↔
      text = text' ∨ ∃ front, Masked text front ∧ Masked text' front := by
  by_cases h : ∃ front, Masked text front <;> by_cases h' : ∃ front, Masked text' front
  · obtain ⟨front, h⟩ := h
    obtain ⟨front', h'⟩ := h'
    rw [replace_masked htext hhost h, replace_masked htext' hhost h', List.append_left_inj]
    constructor
    · rintro rfl
      exact .inr ⟨front, h, h'⟩
    · rintro (rfl | ⟨both, hboth, hboth'⟩)
      · exact h.unique h'
      · rw [h.unique hboth, h'.unique hboth']
  · obtain ⟨front, h⟩ := h
    rw [not_exists] at h'
    rw [replace_masked htext hhost h, replace_none htext' hhost h']
    refine iff_of_false (not_shown htext' hhost h') ?_
    rintro (rfl | ⟨both, -, hboth⟩)
    · exact h' front h
    · exact h' both hboth
  · obtain ⟨front', h'⟩ := h'
    rw [not_exists] at h
    rw [replace_none htext hhost h, replace_masked htext' hhost h']
    refine iff_of_false (not_shown htext hhost h).symm ?_
    rintro (rfl | ⟨both, hboth, -⟩)
    · exact h front' h'
    · exact h both hboth
  · rw [not_exists] at h h'
    rw [replace_none htext hhost h, replace_none htext' hhost h', List.append_left_inj]
    refine (or_iff_left ?_).symm
    rintro ⟨both, hboth, -⟩
    exact h both hboth

theorem replace_unchanged {s : List Char} (h : '@' ∉ s) (replacement : List Char) :
    uriPattern.replace s replacement = s := by
  obtain ⟨hsearch, -⟩ | ⟨front, w, rest, -, hfound⟩ := Regex.search_cases uriPattern s
  · rw [Regex.replace, hsearch]
  · obtain ⟨user, pass, -, -, rfl⟩ := matches_uriPattern.1 hfound.isMatch
    refine absurd ?_ h
    rw [hfound.eq]
    simp

theorem shownAlike_iff (uri uri' : UriString) : ShownAlike uri uri' ↔
    uriPattern.replace uri.value.toList "://<username>:<password>@".toList =
      uriPattern.replace uri'.value.toList "://<username>:<password>@".toList := by
  constructor
  · intro h
    exact String.ofList_inj.1 h.toSensitive
  · intro h
    have hsensitive : replaceUriUsernamePassword uri.value = replaceUriUsernamePassword uri'.value :=
      congrArg String.ofList h
    refine ⟨hsensitive, hsensitive, fun debugStr alternate => ?_, fun serializeStr => congrArg serializeStr hsensitive⟩
    rw [UriString.debug, UriString.debug, show uri.display = uri'.display from hsensitive]

theorem masks_exactly (scheme user host : String) : MasksExactly scheme user host where
  alike_iff password password' hscheme huser hhost hpassword hpassword' _ _ := by
    have hbefore (password : String) : (beforeAt scheme user password).toList =
        scheme.toList ++ (':' :: '/' :: '/' :: (user.toList ++ ':' :: password.toList)) := by
      rw [beforeAt]
      simp only [String.toList_append, List.append_assoc]
      rfl
    have hclean {password : String} (h : '@' ∉ password.toList) : '@' ∉ (beforeAt scheme user password).toList := by
      rw [hbefore]
      simp [hscheme, huser, h]
    have hvalue (password : String) : (connection scheme user password host).value.toList =
        (beforeAt scheme user password).toList ++ '@' :: host.toList := by
      rw [connection]
      simp only [String.toList_append, List.append_assoc]
      rfl
    have hinj : (beforeAt scheme user password).toList = (beforeAt scheme user password').toList ↔
        password = password' := by
      rw [hbefore, hbefore, List.append_right_inj, ← String.toList_inj]
      simp only [List.cons.injEq, true_and, List.append_right_inj]
    rw [shownAlike_iff, hvalue, hvalue, replace_eq_iff (hclean hpassword) (hclean hpassword') hhost, hinj]
  unchanged uri h := by
    have hsame : replaceUriUsernamePassword uri.value = uri.value := by
      rw [replaceUriUsernamePassword, replace_unchanged h, String.ofList_toList]
    refine ⟨hsame, hsame, fun debugStr => ?_, fun serializeStr => congrArg serializeStr hsame⟩
    rw [UriString.debug, show uri.display = uri.value from hsame]
    rfl

end

/-- A password without a user is shown. -/
theorem empty_user_shown : ¬ShownAlike (connection "redis" "" "a" "h") (connection "redis" "" "b" "h") := by
  rw [shownAlike_iff]
  decide +kernel

end Fusions.Sql
