import Fusions.Library.Find
import Fusions.Library.Markup

/-! The fields of an unknown XML event, kept for manual processing. -/
namespace Fusions.Weixin
open Fusions.Library

/-- A value that is pushed unless it is empty. -/
def trimmedField (tag value : List Char) : Option (String × String) :=
  let value := trim (String.ofList value)
  if value.isEmpty then none else some (String.ofList tag, value)

/-- What is read behind a tag, and the text left. `none` is a slice out of bounds or inside a character. -/
def readTag (tag tail : List Char) : Option (Option (String × String) × List Char) :=
  if tag.head?.any isSpecial then some (none, tail)
  else
    match stripPrefix cdataOpen tail with
    | some content => do
      let close := (find cdataClose content).getD (byteLength content)
      return (trimmedField tag (← takeBytes content close), ← dropBytes content close)
    | none => do
      let textEnd := (find ['<'] tail).getD (byteLength tail)
      return (trimmedField tag (← takeBytes tail textEnd), ← dropBytes tail textEnd)

/-- One turn of the loop over the text left; the inner `none` is its end. -/
def nextField (rest : List Char) : Option (Option (Option (String × String) × List Char)) :=
  match find ['<'] rest with
  | none => some none
  | some bracket => do
    let after ← dropBytes rest (bracket + 1)
    match find ['>'] after with
    | none => return none
    | some tagEnd => return some (← readTag (← takeBytes after tagEnd) (← dropBytes after (tagEnd + 1)))

section
variable {rest tag tail : List Char}

theorem readTag_shorter (tag tail : List Char) :
    ∃ field? more, readTag tag tail = some (field?, more) ∧ more.length ≤ tail.length := by
  have hshorter {value more : List Char} : more.length ≤ (value ++ more).length := by
    rw [List.length_append]
    exact Nat.le_add_left _ _
  rw [readTag]
  by_cases hspecial : tag.head?.any isSpecial
  · exact ⟨none, tail, if_pos hspecial, Nat.le_refl _⟩
  rw [if_neg hspecial]
  obtain ⟨content, rfl, hstrip⟩ | ⟨-, hstrip⟩ := stripPrefix_cases cdataOpen tail
  · obtain ⟨value, more, rfl, htake, hdrop⟩ := upTo_cases cdataClose content
    refine ⟨trimmedField tag value, more, ?_, Nat.le_trans hshorter hshorter⟩
    rw [hstrip]
    dsimp only
    rw [htake, hdrop]
    rfl
  · obtain ⟨value, more, hsplit, htake, hdrop⟩ := upTo_cases ['<'] tail
    refine ⟨trimmedField tag value, more, ?_, by rw [hsplit]; exact hshorter⟩
    rw [hstrip]
    dsimp only
    rw [htake, hdrop]
    rfl

/-- A tag is read behind what has no bracket. -/
theorem nextField_tag {junk : List Char} (hjunk : '<' ∉ junk) (htag : '>' ∉ tag) (tail : List Char) :
    nextField (junk ++ '<' :: (tag ++ '>' :: tail)) = (readTag tag tail).map some := by
  rw [nextField, (foundAt_char hjunk _).find_eq]
  dsimp only
  rw [dropBytes_past rfl, Option.bind_eq_bind, Option.bind_some, (foundAt_char htag _).find_eq]
  dsimp only
  rw [dropBytes_past rfl, takeBytes_byteLength, Option.bind_some, Option.bind_some]
  cases readTag tag tail <;> rfl

/-- A turn ends the loop, or it leaves a shorter text. -/
theorem nextField_cases (rest : List Char) : nextField rest = some none ∨
    ∃ field? more, nextField rest = some (some (field?, more)) ∧ more.length < rest.length := by
  obtain ⟨hfind, -⟩ | ⟨junk, after, -, hopen⟩ := find_cases ['<'] rest
  · rw [nextField, hfind]
    exact .inl rfl
  obtain rfl := hopen.eq
  obtain ⟨hfind, -⟩ | ⟨tag, tail, -, hclose⟩ := find_cases ['>'] after
  · rw [nextField, hopen.find_eq]
    dsimp only
    rw [List.singleton_append, dropBytes_past rfl, Option.bind_eq_bind, Option.bind_some, hfind]
    exact .inl rfl
  · obtain rfl := hclose.eq
    obtain ⟨field?, more, hread, hle⟩ := readTag_shorter tag tail
    have htag := nextField_tag hopen.notMem hclose.notMem tail
    rw [hread] at htag
    refine .inr ⟨field?, more, htag, ?_⟩
    simp only [List.length_append, List.length_cons]
    omega

end

/-- The loop, from a text left on. -/
def fieldsFrom (rest : List Char) : Option (List (String × String)) :=
  match _h : nextField rest with
  | none => none
  | some none => some []
  | some (some (field?, more)) => (fieldsFrom more).map (field?.toList ++ ·)
termination_by rest.length
decreasing_by
  obtain hend | ⟨field?', more', hnext, hlt⟩ := nextField_cases rest
  · rw [hend] at _h
    cases _h
  · rw [hnext] at _h
    cases _h
    exact hlt

/-- `xml_top_level_fields`; `none` is a panic. -/
def xmlTopLevelFields (body : String) : Option (List (String × String)) := fieldsFrom body.toList

/-- The dump of an event is complete: the leaves of an element tree, and no panic on any body. -/
structure DumpsAllFields : Prop where
  total : ∀ body, xmlTopLevelFields body ≠ none
  complete : ∀ (elements : Elements) (declaration text : List Char), IsDeclaration declaration → elements.Trimmed →
    elements.Written text → xmlTopLevelFields (String.ofList (declaration ++ text)) =
      some (elements.leaves.map fun leaf => (String.ofList leaf.1, String.ofList leaf.2))

section
variable {rest more : List Char}

theorem fieldsFrom_end (h : nextField rest = some none) : fieldsFrom rest = some [] := by
  rw [fieldsFrom]
  split
  · next hnext => rw [h] at hnext; cases hnext
  · rfl
  · next hnext => rw [h] at hnext; cases hnext

theorem fieldsFrom_next {field? : Option (String × String)} (h : nextField rest = some (some (field?, more))) :
    fieldsFrom rest = (fieldsFrom more).map (field?.toList ++ ·) := by
  rw [fieldsFrom]
  split
  · next hnext => rw [h] at hnext; cases hnext
  · next hnext => rw [h] at hnext; cases hnext
  · next hnext =>
    rw [h] at hnext
    cases hnext
    rfl

theorem fieldsFrom_ne_none (rest : List Char) : fieldsFrom rest ≠ none := by
  induction hn : rest.length using Nat.strongRecOn generalizing rest with
  | ind n ih =>
    obtain hend | ⟨field?, more, hnext, hlt⟩ := nextField_cases rest
    · rw [fieldsFrom_end hend]
      exact Option.some_ne_none _
    · rw [fieldsFrom_next hnext, Ne, Option.map_eq_none_iff]
      exact ih more.length (by rw [← hn]; exact hlt) more rfl

theorem nextField_junk {junk : List Char} (h : '<' ∉ junk) (rest : List Char) :
    nextField (junk ++ rest) = nextField rest := by
  obtain ⟨hfind, hnot⟩ | ⟨front, after, -, hopen⟩ := find_cases ['<'] rest
  · have hboth : find ['<'] (junk ++ rest) = none := by
      rw [← notMem_iff_notInfix] at hnot
      exact find_none (notMem_iff_notInfix.1 fun hmem => (List.mem_append.1 hmem).elim h hnot)
    rw [nextField, hboth, nextField, hfind]
  · have hfront : '<' ∉ junk ++ front := fun hmem => (List.mem_append.1 hmem).elim h hopen.notMem
    obtain rfl := hopen.eq
    rw [nextField, nextField, hopen.find_eq, List.singleton_append, ← List.append_assoc,
      (foundAt_char hfront _).find_eq]
    dsimp only
    rw [dropBytes_past rfl, dropBytes_past rfl]

theorem fieldsFrom_junk {junk : List Char} (h : '<' ∉ junk) (rest : List Char) :
    fieldsFrom (junk ++ rest) = fieldsFrom rest := by
  have hjunk := nextField_junk h rest
  obtain hend | ⟨field?, more, hnext, -⟩ := nextField_cases rest
  · rw [hend] at hjunk
    rw [fieldsFrom_end hjunk, fieldsFrom_end hend]
  · rw [hnext] at hjunk
    rw [fieldsFrom_next hjunk, fieldsFrom_next hnext]

theorem fieldsFrom_tag {tag tail : List Char} (htag : '>' ∉ tag) {field? : Option (String × String)}
    (hread : readTag tag tail = some (field?, more)) :
    fieldsFrom ('<' :: (tag ++ '>' :: tail)) = (fieldsFrom more).map (field?.toList ++ ·) := by
  have hnext := nextField_tag List.not_mem_nil htag tail
  rw [hread] at hnext
  exact fieldsFrom_next hnext

theorem fieldsFrom_special {c : Char} {tag : List Char} (hc : isSpecial c = true) (htag : '>' ∉ c :: tag)
    (tail : List Char) : fieldsFrom ('<' :: c :: (tag ++ '>' :: tail)) = fieldsFrom tail := by
  have hread : readTag (c :: tag) tail = some (none, tail) := if_pos hc
  have htail := fieldsFrom_tag htag hread
  rw [Option.toList_none] at htail
  refine htail.trans ?_
  cases fieldsFrom tail <;> rfl

theorem fieldsFrom_endTag {name : List Char} (hname : IsName name) (text : List Char) :
    fieldsFrom (endTag name ++ text) = fieldsFrom text := by
  have hclose : '>' ∉ '/' :: name := by
    rw [List.mem_cons, not_or]
    exact ⟨by decide, hname.close⟩
  rw [endTag, List.cons_append, List.cons_append, List.append_assoc]
  exact fieldsFrom_special rfl hclose text

theorem not_special {name : List Char} (hname : IsName name) : ¬name.head?.any isSpecial = true := by
  cases hhead : name.head? with
  | none => exact Bool.false_ne_true
  | some c => exact ne_true_of_eq_false (hname.head c hhead)

theorem readTag_text {name value : List Char} {c : Char} (hname : IsName name) (hvalue : '<' ∉ value)
    (hc : c ≠ '!') (more : List Char) :
    readTag name (value ++ '<' :: c :: more) = some (trimmedField name value, '<' :: c :: more) := by
  have hcdata : ¬cdataOpen <+: value ++ '<' :: c :: more := by
    intro hprefix
    cases value with
    | nil => exact hc (List.cons_prefix_cons.1 (List.cons_prefix_cons.1 hprefix).2).1.symm
    | cons d value =>
      obtain ⟨rfl, -⟩ := List.cons_prefix_cons.1 hprefix
      exact hvalue List.mem_cons_self
  have hstrip : stripPrefix cdataOpen (value ++ '<' :: c :: more) = none := if_neg hcdata
  rw [readTag, if_neg (not_special hname), hstrip]
  dsimp only
  rw [(foundAt_char hvalue _).find_eq, Option.getD_some, takeBytes_byteLength, dropBytes_byteLength]
  rfl

theorem unbordered_cdataClose : Unbordered cdataClose :=
  show Unbordered ([']', ']'] ++ ['>']) from unbordered_last (by decide)

theorem readTag_cdata {name value : List Char} (hname : IsName name) (hvalue : ¬cdataClose <:+: value)
    (more : List Char) : readTag name (cdataOpen ++ (value ++ (cdataClose ++ more))) =
      some (trimmedField name value, cdataClose ++ more) := by
  rw [readTag, if_neg (not_special hname), stripPrefix_append]
  dsimp only
  rw [(unbordered_cdataClose.foundAt hvalue more).find_eq, Option.getD_some, takeBytes_byteLength,
    dropBytes_byteLength]
  rfl

theorem trimmedField_gap {gap : List Char} (hgap : IsGap gap) (tag : List Char) : trimmedField tag gap = none := by
  have hdrop : gap.dropWhile isWhitespace = [] := List.dropWhile_eq_nil_iff.2 hgap
  have htrim : trim (String.ofList gap) = "" := by
    rw [trim, String.toList_ofList, hdrop]
    rfl
  rw [trimmedField, htrim]
  rfl

theorem exists_startTag {name : List Char} (hname : IsName name) (rest : List Char) :
    ∃ c more, startTag name ++ rest = '<' :: c :: more ∧ c ≠ '!' := by
  cases name with
  | nil => exact ⟨'>', rest, rfl, by decide⟩
  | cons c name =>
    refine ⟨c, name ++ '>' :: rest, by simp [startTag], ?_⟩
    rintro rfl
    exact absurd (hname.head '!' rfl) (by decide)

/-- The text of elements begins with a gap, and a bracket that opens no section is behind it. -/
theorem exists_gap {elements : Elements} {text : List Char} (h : elements.Written text) {c : Char} (hc : c ≠ '!')
    (more : List Char) :
    ∃ gap d rest, IsGap gap ∧ d ≠ '!' ∧ text ++ '<' :: c :: more = gap ++ '<' :: d :: rest := by
  have hstart {gap name rest : List Char} (hgap : IsGap gap) (hname : IsName name) :
      ∃ gap' d rest', IsGap gap' ∧ d ≠ '!' ∧
        (gap ++ (startTag name ++ rest)) ++ '<' :: c :: more = gap' ++ '<' :: d :: rest' := by
    obtain ⟨d, rest', hrest, hd⟩ := exists_startTag hname (rest ++ '<' :: c :: more)
    exact ⟨gap, d, rest', hgap, hd, by rw [List.append_assoc, List.append_assoc, hrest]⟩
  cases h with
  | nil hgap => exact ⟨text, c, more, hgap, hc, rfl⟩
  | plain hgap hname => exact hstart hgap hname
  | cdata hgap hname => exact hstart hgap hname
  | node hgap hname => exact hstart hgap hname

theorem fieldsFrom_startTag {name tail : List Char} (hname : IsName name) {field? : Option (String × String)}
    (hread : readTag name tail = some (field?, more)) :
    fieldsFrom (startTag name ++ tail) = (fieldsFrom more).map (field?.toList ++ ·) := by
  rw [startTag, List.cons_append, List.append_assoc]
  exact fieldsFrom_tag hname.close hread

theorem fieldsFrom_plain {name value : List Char} (hname : IsName name) (hvalue : '<' ∉ value) (text : List Char) :
    fieldsFrom (startTag name ++ (value ++ (endTag name ++ text))) =
      (fieldsFrom text).map ((trimmedField name value).toList ++ ·) := by
  have hread : readTag name (value ++ (endTag name ++ text)) =
      some (trimmedField name value, endTag name ++ text) := readTag_text hname hvalue (c := '/') (by decide) _
  rw [fieldsFrom_startTag hname hread, fieldsFrom_endTag hname]

theorem fieldsFrom_cdata {name value : List Char} (hname : IsName name) (hvalue : ¬cdataClose <:+: value)
    (text : List Char) :
    fieldsFrom (startTag name ++ (cdataOpen ++ (value ++ (cdataClose ++ (endTag name ++ text))))) =
      (fieldsFrom text).map ((trimmedField name value).toList ++ ·) := by
  have hclose : '<' ∉ cdataClose := by decide
  rw [fieldsFrom_startTag hname (readTag_cdata hname hvalue _), fieldsFrom_junk hclose, fieldsFrom_endTag hname]

/-- The elements in an element are read as if it were not there. -/
theorem fieldsFrom_node {name inner : List Char} {children : Elements} (hname : IsName name)
    (hchildren : children.Written inner) (text : List Char) :
    fieldsFrom (startTag name ++ (inner ++ (endTag name ++ text))) = fieldsFrom (inner ++ (endTag name ++ text)) := by
  obtain ⟨gap, d, rest, hgap, hd, hinner⟩ := exists_gap hchildren (c := '/') (by decide) (name ++ ['>'] ++ text)
  have hread := readTag_text hname hgap.bracket_notMem hd rest
  have hskip : inner ++ (endTag name ++ text) = gap ++ '<' :: d :: rest := hinner
  rw [← hskip, trimmedField_gap hgap] at hread
  rw [fieldsFrom_startTag hname hread, hskip, fieldsFrom_junk hgap.bracket_notMem, Option.toList_none]
  cases fieldsFrom ('<' :: d :: rest) <;> rfl

theorem trimmedField_eq {name value : List Char} (hne : value ≠ [])
    (htrim : trim (String.ofList value) = String.ofList value) :
    trimmedField name value = some (String.ofList name, String.ofList value) := by
  have hempty : (String.ofList value).isEmpty = false := by
    rw [← Bool.not_eq_true, String.isEmpty_iff, ← String.toList_inj, String.toList_ofList]
    exact hne
  rw [trimmedField, htrim, hempty]
  rfl

theorem trimmedField_leaf {name value : List Char} {leaves : List (List Char × List Char)}
    (h : ∀ leaf ∈ (name, value) :: leaves, leaf.2 ≠ [] ∧ trim (String.ofList leaf.2) = String.ofList leaf.2) :
    trimmedField name value = some (String.ofList name, String.ofList value) :=
  trimmedField_eq (h _ List.mem_cons_self).1 (h _ List.mem_cons_self).2

/-- The leaves of elements are read, and then what is behind the elements. -/
theorem fieldsFrom_written {elements : Elements} {text : List Char} (h : elements.Written text)
    (htrimmed : elements.Trimmed) {back : List Char} {fields : List (String × String)}
    (hback : fieldsFrom back = some fields) : fieldsFrom (text ++ back) =
      some ((elements.leaves.map fun leaf => (String.ofList leaf.1, String.ofList leaf.2)) ++ fields) := by
  induction h generalizing back fields with
  | nil hgap => exact (fieldsFrom_junk hgap.bracket_notMem back).trans hback
  | plain hgap hname hvalue _ ih =>
    have hrest := ih (fun leaf hleaf => htrimmed leaf (List.mem_cons_of_mem _ hleaf)) hback
    simp only [List.append_assoc]
    rw [fieldsFrom_junk hgap.bracket_notMem, fieldsFrom_plain hname hvalue, hrest, trimmedField_leaf htrimmed]
    rfl
  | cdata hgap hname hvalue _ ih =>
    have hrest := ih (fun leaf hleaf => htrimmed leaf (List.mem_cons_of_mem _ hleaf)) hback
    simp only [List.append_assoc]
    rw [fieldsFrom_junk hgap.bracket_notMem, fieldsFrom_cdata hname hvalue, hrest, trimmedField_leaf htrimmed]
    rfl
  | node hgap hname hchildren _ ihchildren ih =>
    have hrest := ih (fun leaf hleaf => htrimmed leaf (List.mem_append_right _ hleaf)) hback
    have hinner := ihchildren (fun leaf hleaf => htrimmed leaf (List.mem_append_left _ hleaf))
      ((fieldsFrom_endTag hname _).trans hrest)
    simp only [List.append_assoc]
    rw [fieldsFrom_junk hgap.bracket_notMem, fieldsFrom_node hname hchildren, hinner, Elements.leaves,
      List.map_append, List.append_assoc]

theorem dumps_all_fields : DumpsAllFields where
  total body := fieldsFrom_ne_none body.toList
  complete elements declaration text hdeclaration htrimmed htext := by
    have hend : fieldsFrom [] = some [] := fieldsFrom_end rfl
    have hfields := fieldsFrom_written htext htrimmed hend
    rw [List.append_nil, List.append_nil] at hfields
    rw [xmlTopLevelFields, String.toList_ofList]
    cases hdeclaration with
    | absent => exact hfields
    | @present inside hclose =>
      have htag : '>' ∉ '?' :: (inside ++ ['?']) := by
        simp only [List.mem_cons, List.mem_append, not_or]
        exact ⟨by decide, hclose, by decide, List.not_mem_nil⟩
      have hskip := fieldsFrom_special (c := '?') rfl htag text
      rw [List.append_assoc] at hskip
      rw [List.cons_append, List.cons_append, List.append_assoc]
      exact hskip.trans hfields

end
end Fusions.Weixin
