import Fusions.Hetuflow.Core.JsonGrammar

/-! The signData of a payment: the text that both signatures of an order are computed over. -/
namespace Fusions.Weixin
open Library Hetuflow Hetuflow.Json

structure SignDataParams where
  offerId : String
  env : Int32
  productId : String
  goodsPriceCents : Int32
  outTradeNo : String
  buyQuantity : Int32
  attach : String
  deriving DecidableEq

/-- `str::replace` of a character. -/
def replace (s : String) (c : Char) (replacement : String) : String :=
  String.ofList (s.toList.flatMap fun d => if d = c then replacement.toList else [d])

def buildSignData (params : SignDataParams) : String :=
  let quantity := max params.buyQuantity 1
  let price := params.goodsPriceCents
  let attach := replace (replace params.attach backslash "\\\\") quote "\\\""
  "\x7b\"attach\":\"" ++ attach ++ "\",\"buyQuantity\":" ++ toString quantity ++ ",\"currencyType\":\"CNY\",\"env\":" ++
    toString params.env ++ ",\"goodsPrice\":" ++ toString price ++ ",\"offerId\":\"" ++ params.offerId ++
    "\",\"outTradeNo\":\"" ++ params.outTradeNo ++ "\",\"productId\":\"" ++ params.productId ++ "\"\x7d"

/-- The members of an order, by name. -/
def signMembers (params : SignDataParams) : List (String × Json) :=
  [("attach", .str params.attach), ("buyQuantity", .num params.buyQuantity.toInt), ("currencyType", .str "CNY"),
    ("env", .num params.env.toInt), ("goodsPrice", .num params.goodsPriceCents.toInt), ("offerId", .str params.offerId),
    ("outTradeNo", .str params.outTradeNo), ("productId", .str params.productId)]

/-- The text of an order is JSON for its members, in the order of their names, and for no other order. -/
structure Canonical (params : SignDataParams) : Prop where
  parses : ∀ j, IsText (buildSignData params) j ↔ j = .obj (signMembers params)
  sorted : ((signMembers params).map Prod.fst).Pairwise (· < ·)
  unshared : ∀ other : SignDataParams, 1 ≤ other.buyQuantity → buildSignData other = buildSignData params →
    other = params

/-- Nothing has to be escaped but the quotes and the backslashes of `attach`. -/
structure Clean (params : SignDataParams) : Prop where
  attach : ∀ c ∈ params.attach.toList, 32 ≤ c.toNat
  offerId : ∀ c ∈ params.offerId.toList, c ∉ escaped
  outTradeNo : ∀ c ∈ params.outTradeNo.toList, c ∉ escaped
  productId : ∀ c ∈ params.productId.toList, c ∉ escaped

/-- A character of `attach` in the text. -/
def attachCode (c : Char) : List Char :=
  if c = backslash then [backslash, backslash] else if c = quote then [backslash, quote] else [c]

theorem replace_attach (attach : String) :
    (replace (replace attach backslash "\\\\") quote "\\\"").toList = attach.toList.flatMap attachCode := by
  simp only [replace, String.toList_ofList, List.flatMap_assoc]
  refine List.flatMap_congr fun c _ => ?_
  unfold attachCode
  by_cases hbackslash : c = backslash
  · rw [if_pos hbackslash, if_pos hbackslash]
    decide
  · rw [if_neg hbackslash, if_neg hbackslash]
    by_cases hquote : c = quote
    · rw [if_pos hquote, List.flatMap_singleton, if_pos hquote]
      rfl
    · rw [if_neg hquote, List.flatMap_singleton, if_neg hquote]

/-! The text of an order, part by part. -/

section
variable {params : SignDataParams}

theorem buildSignData_toList (params : SignDataParams) : (buildSignData params).toList =
    "\x7b\"attach\":\"".toList ++ (params.attach.toList.flatMap attachCode ++ ("\",\"buyQuantity\":".toList ++
      ((toString (max params.buyQuantity 1).toInt).toList ++ (",\"currencyType\":\"CNY\",\"env\":".toList ++
        ((toString params.env.toInt).toList ++ (",\"goodsPrice\":".toList ++
          ((toString params.goodsPriceCents.toInt).toList ++ (",\"offerId\":\"".toList ++ (params.offerId.toList ++
            ("\",\"outTradeNo\":\"".toList ++ (params.outTradeNo.toList ++ ("\",\"productId\":\"".toList ++
              (params.productId.toList ++ "\"\x7d".toList))))))))))))) := by
  have hnumber : ∀ n : Int32, (toString n).toList = (toString n.toInt).toList := fun _ => rfl
  unfold buildSignData
  dsimp only
  simp only [String.toList_append, replace_attach, List.append_assoc]
  rw [hnumber, hnumber, hnumber]

theorem max_quantity {quantity : Int32} (h : 1 ≤ quantity) : max quantity 1 = quantity := by
  change (if quantity ≤ 1 then 1 else quantity) = quantity
  split
  · next hle => exact Int32.le_antisymm h hle
  · rfl

theorem signMembers_sorted (params : SignDataParams) : ((signMembers params).map Prod.fst).Pairwise (· < ·) := by
  simp only [signMembers, List.map_cons, List.map_nil]
  decide

/-! A clean order is JSON. -/

theorem attachCode_isChar {c : Char} (h : 32 ≤ c.toNat) : IsChar (attachCode c) c := by
  unfold attachCode
  split
  · next heq =>
    rw [heq]
    exact .short (by simp [shortEscapes])
  · next hbackslash =>
    split
    · next heq =>
      rw [heq]
      exact .short (by simp [shortEscapes])
    · next hquote => exact .plain fun hmem => by simp [mem_escaped, hbackslash, hquote] at hmem; omega

/-- A member with no white space in it. -/
def compact (name : String) (core : List Char) (value : Json) : Member :=
  ⟨[], quote :: (name.toList ++ [quote]), [], name, [], core, [], value⟩

theorem compact_named {name : String} (h : ∀ c ∈ name.toList, c ∉ escaped) (core : List Char) (value : Json) :
    (compact name core value).Named :=
  ⟨nofun, isString_plain h, nofun, nofun, nofun⟩

theorem compact_text (name : String) (core : List Char) (value : Json) :
    (compact name core value).text = quote :: (name.toList ++ quote :: ':' :: core) := by
  simp [compact, Member.text, Element.text]

/-- The members of an order, in the text that it has. -/
def compactMembers (params : SignDataParams) : List Member :=
  let string (s : String) : List Char := quote :: (s.toList ++ [quote])
  let number (n : Int32) : List Char := (toString n.toInt).toList
  [compact "attach" (quote :: (params.attach.toList.flatMap attachCode ++ [quote])) (.str params.attach),
    compact "buyQuantity" (number params.buyQuantity) (.num params.buyQuantity.toInt),
    compact "currencyType" (string "CNY") (.str "CNY"), compact "env" (number params.env) (.num params.env.toInt),
    compact "goodsPrice" (number params.goodsPriceCents) (.num params.goodsPriceCents.toInt),
    compact "offerId" (string params.offerId) (.str params.offerId),
    compact "outTradeNo" (string params.outTradeNo) (.str params.outTradeNo),
    compact "productId" (string params.productId) (.str params.productId)]

theorem compactMembers_text (h : 1 ≤ params.buyQuantity) :
    '\x7b' :: ([','].intercalate ((compactMembers params).map Member.text) ++ ['\x7d']) =
      (buildSignData params).toList := by
  have hpieces : "\x7b\"attach\":\"".toList = '\x7b' :: quote :: ("attach".toList ++ [quote, ':', quote]) ∧
      "\",\"buyQuantity\":".toList = quote :: ',' :: quote :: ("buyQuantity".toList ++ [quote, ':']) ∧
      ",\"currencyType\":\"CNY\",\"env\":".toList = ',' :: quote :: ("currencyType".toList ++ quote :: ':' :: quote ::
        ("CNY".toList ++ quote :: ',' :: quote :: ("env".toList ++ [quote, ':']))) ∧
      ",\"goodsPrice\":".toList = ',' :: quote :: ("goodsPrice".toList ++ [quote, ':']) ∧
      ",\"offerId\":\"".toList = ',' :: quote :: ("offerId".toList ++ [quote, ':', quote]) ∧
      "\",\"outTradeNo\":\"".toList = quote :: ',' :: quote :: ("outTradeNo".toList ++ [quote, ':', quote]) ∧
      "\",\"productId\":\"".toList = quote :: ',' :: quote :: ("productId".toList ++ [quote, ':', quote]) ∧
      "\"\x7d".toList = [quote, '\x7d'] := by simp [quote]
  rw [buildSignData_toList, max_quantity h]
  simp only [hpieces, compactMembers, compact_text, List.map_cons, List.map_nil, List.intercalate_cons_cons,
    List.intercalate_singleton, List.append_assoc, List.cons_append, List.nil_append]

theorem parses_of_clean (hquantity : 1 ≤ params.buyQuantity) (h : Clean params) :
    IsText (buildSignData params) (.obj (signMembers params)) := by
  have hname : ∀ name ∈ ["attach", "buyQuantity", "currencyType", "env", "goodsPrice", "offerId", "outTradeNo",
      "productId"], ∀ c ∈ name.toList, c ∉ escaped := by simp [mem_escaped, quote, backslash]
  have hcurrency : ∀ c ∈ "CNY".toList, c ∉ escaped := by simp [mem_escaped, quote, backslash]
  have hvalue : IsValue (buildSignData params).toList (.obj ((compactMembers params).map Member.field)) := by
    rw [← compactMembers_text hquantity]
    refine .obj (by simp [compactMembers]) ?_ ?_
    · intro m hm
      simp only [compactMembers, List.mem_cons, List.not_mem_nil, or_false] at hm
      rcases hm with rfl | rfl | rfl | rfl | rfl | rfl | rfl | rfl <;> exact compact_named (hname _ (by simp)) _ _
    · simp only [compactMembers, List.forall_mem_cons]
      exact ⟨.str (isString_of_code attachCode fun c hc => attachCode_isChar (h.attach c hc)), .token (.num _),
        .str (isString_plain hcurrency), .token (.num _), .token (.num _), .str (isString_plain h.offerId),
        .str (isString_plain h.outTradeNo), .str (isString_plain h.productId), List.forall_mem_nil _⟩
  have hfields : (compactMembers params).map Member.field = signMembers params := rfl
  rw [hfields] at hvalue
  exact isText_of_isValue hvalue

/-! An order that is JSON is clean: the text has no room for an escape more. -/

theorem attachCode_length (c : Char) : (attachCode c).length ≤ charLength c := by
  unfold attachCode
  split
  · next h => simp [charLength, h, backslash_escaped]
  · split
    · next h => simp [charLength, h, quote_escaped]
    · unfold charLength
      split <;> simp

theorem singleton_length (c : Char) : [c].length ≤ charLength c := by
  unfold charLength
  split <;> simp

theorem attach_of_length {s : String} (h : stringLength s ≤ (s.toList.flatMap attachCode).length + 2) :
    ∀ c ∈ s.toList, 32 ≤ c.toNat := by
  intro c hc
  have hlength := charLength_le_of_stringLength_le attachCode_length h c hc
  by_contra hcontrol
  have hmem : c ∈ escaped := mem_escaped.2 (.inl (by omega))
  have hbackslash : c ≠ backslash := by
    rintro rfl
    exact hcontrol (by decide)
  have hquote : c ≠ quote := by
    rintro rfl
    exact hcontrol (by decide)
  simp [charLength, attachCode, hmem, hbackslash, hquote] at hlength

theorem plain_of_length {s : String} (h : stringLength s ≤ s.toList.length + 2) : ∀ c ∈ s.toList, c ∉ escaped := by
  intro c hc hmem
  have hlength := charLength_le_of_stringLength_le singleton_length (by simpa using h) c hc
  simp [charLength, hmem] at hlength

theorem clean_of_parses (hquantity : 1 ≤ params.buyQuantity)
    (h : IsText (buildSignData params) (.obj (signMembers params))) : Clean params := by
  obtain ⟨e, -, hvalue, htext, hobj⟩ := h
  rw [hobj] at hvalue
  have hlength := obj_length hvalue
  have hcore : e.core.length ≤ (buildSignData params).toList.length := by
    rw [← htext, Element.text]
    simp only [List.length_append]
    omega
  rw [buildSignData_toList, max_quantity hquantity] at hcore
  have hnames : stringLength "attach" = 8 ∧ stringLength "buyQuantity" = 13 ∧ stringLength "currencyType" = 14 ∧
      stringLength "CNY" = 5 ∧ stringLength "env" = 5 ∧ stringLength "goodsPrice" = 12 ∧ stringLength "offerId" = 9 ∧
      stringLength "outTradeNo" = 12 ∧ stringLength "productId" = 11 := by
    simp [stringLength, charLength, mem_escaped, quote, backslash]
  simp only [signMembers, memberLength, leastLength, List.map_cons, List.map_nil, List.sum_cons, List.sum_nil,
    hnames] at hlength
  have hpieces : "\x7b\"attach\":\"".toList.length = 11 ∧ "\",\"buyQuantity\":".toList.length = 16 ∧
      ",\"currencyType\":\"CNY\",\"env\":".toList.length = 28 ∧ ",\"goodsPrice\":".toList.length = 14 ∧
      ",\"offerId\":\"".toList.length = 12 ∧ "\",\"outTradeNo\":\"".toList.length = 16 ∧
      "\",\"productId\":\"".toList.length = 15 ∧ "\"\x7d".toList.length = 2 := by simp
  simp only [List.length_append, hpieces] at hcore
  have hattach := length_flatMap_le (s := params.attach) attachCode_length
  have hraw : ∀ s : String, s.toList.length + 2 ≤ stringLength s := fun s => by
    simpa using length_flatMap_le (s := s) singleton_length
  have hoffer := hraw params.offerId
  have htrade := hraw params.outTradeNo
  have hproduct := hraw params.productId
  exact ⟨attach_of_length (by omega), plain_of_length (by omega), plain_of_length (by omega),
    plain_of_length (by omega)⟩

/-! A clean order shares its text with no other. -/

theorem attachCode_readsBack (a b : Char) (s t : List Char) (h : attachCode a ++ s = attachCode b ++ t) :
    a = b ∧ s = t := by
  refine prefixCode_readsBack (fun a b hpre => ?_) h
  unfold attachCode at hpre
  grind

theorem attachCode_ne_quote (c : Char) (s t : List Char) : attachCode c ++ s ≠ quote :: t := by
  unfold attachCode
  split
  · exact fun h => absurd (List.cons.inj h).1 (by decide)
  · split
    · exact fun h => absurd (List.cons.inj h).1 (by decide)
    · next hquote => exact fun h => hquote (List.cons.inj h).1

theorem number_readsBack {m n : Int32} {s t : List Char}
    (h : (toString m.toInt).toList ++ ',' :: s = (toString n.toInt).toList ++ ',' :: t) : m = n ∧ s = t := by
  have hcomma : ∀ k : Int, ',' ∉ (toString k).toList := by
    intro k hk
    rcases int_chars hk with hdigit | hminus
    · exact absurd hdigit (by decide)
    · exact absurd hminus (by decide)
  obtain ⟨htext, hst⟩ := first_readsBack (hcomma _) (hcomma _) h
  exact ⟨Int32.toInt_inj.1 (int_text_injective htext), hst⟩

/-- The last three strings of an order and what stands between them. -/
def lastStrings (params : SignDataParams) : List Char :=
  params.offerId.toList ++ (quote :: ",\"outTradeNo\":\"".toList ++ (params.outTradeNo.toList ++
    (quote :: ",\"productId\":\"".toList ++ (params.productId.toList ++ [quote, '\x7d']))))

/-- The text of an order, with what stops each part as a character of its own. -/
theorem buildSignData_parts (h : 1 ≤ params.buyQuantity) : (buildSignData params).toList =
    "\x7b\"attach\":\"".toList ++ (params.attach.toList.flatMap attachCode ++ quote :: (",\"buyQuantity\":".toList ++
      ((toString params.buyQuantity.toInt).toList ++ ',' :: ("\"currencyType\":\"CNY\",\"env\":".toList ++
        ((toString params.env.toInt).toList ++ ',' :: ("\"goodsPrice\":".toList ++
          ((toString params.goodsPriceCents.toInt).toList ++ ',' :: ("\"offerId\":\"".toList ++
            lastStrings params)))))))) := by
  have hpieces : "\",\"buyQuantity\":".toList = quote :: ",\"buyQuantity\":".toList ∧
      ",\"currencyType\":\"CNY\",\"env\":".toList = ',' :: "\"currencyType\":\"CNY\",\"env\":".toList ∧
      ",\"goodsPrice\":".toList = ',' :: "\"goodsPrice\":".toList ∧
      ",\"offerId\":\"".toList = ',' :: "\"offerId\":\"".toList ∧
      "\",\"outTradeNo\":\"".toList = quote :: ",\"outTradeNo\":\"".toList ∧
      "\",\"productId\":\"".toList = quote :: ",\"productId\":\"".toList ∧ "\"\x7d".toList = [quote, '\x7d'] := by
    simp [quote]
  rw [buildSignData_toList, max_quantity h]
  simp only [hpieces, lastStrings, List.cons_append]

/-- Where no quote is in one order's strings, none is in the other's, and each string ends at the same one. -/
theorem lastStrings_readsBack (h : Clean params) {other : SignDataParams}
    (heq : lastStrings other = lastStrings params) :
    other.offerId = params.offerId ∧ other.outTradeNo = params.outTradeNo ∧ other.productId = params.productId := by
  have hplain : ∀ {s : String}, (∀ c ∈ s.toList, c ∉ escaped) → quote ∉ s.toList := fun hs hmem =>
    hs _ hmem quote_escaped
  have hcount := congrArg (List.count quote) heq
  simp only [lastStrings, List.count_append, List.count_cons, List.count_nil, List.count_eq_zero.2 (hplain h.offerId),
    List.count_eq_zero.2 (hplain h.outTradeNo), List.count_eq_zero.2 (hplain h.productId)] at hcount
  have hoffer : quote ∉ other.offerId.toList := List.count_eq_zero.1 (by omega)
  have htrade : quote ∉ other.outTradeNo.toList := List.count_eq_zero.1 (by omega)
  have hproduct : quote ∉ other.productId.toList := List.count_eq_zero.1 (by omega)
  simp only [lastStrings, List.cons_append] at heq
  obtain ⟨hofferId, heq⟩ := first_readsBack hoffer (hplain h.offerId) heq
  obtain ⟨houtTradeNo, heq⟩ := first_readsBack htrade (hplain h.outTradeNo) (List.append_cancel_left heq)
  obtain ⟨hproductId, -⟩ := first_readsBack hproduct (hplain h.productId) (List.append_cancel_left heq)
  exact ⟨String.toList_inj.1 hofferId, String.toList_inj.1 houtTradeNo, String.toList_inj.1 hproductId⟩

theorem unshared_of_clean (hquantity : 1 ≤ params.buyQuantity) (h : Clean params) {other : SignDataParams}
    (hother : 1 ≤ other.buyQuantity) (heq : buildSignData other = buildSignData params) : other = params := by
  have hlist := congrArg String.toList heq
  rw [buildSignData_parts hquantity, buildSignData_parts hother] at hlist
  obtain ⟨hattach, hlist⟩ := codes_readsBack attachCode_readsBack attachCode_ne_quote (List.append_cancel_left hlist)
  obtain ⟨hbuyQuantity, hlist⟩ := number_readsBack (List.append_cancel_left hlist)
  obtain ⟨henv, hlist⟩ := number_readsBack (List.append_cancel_left hlist)
  obtain ⟨hprice, hlist⟩ := number_readsBack (List.append_cancel_left hlist)
  obtain ⟨hoffer, htrade, hproduct⟩ := lastStrings_readsBack h (List.append_cancel_left hlist)
  cases other
  cases params
  simp only [SignDataParams.mk.injEq]
  exact ⟨hoffer, henv, hproduct, hprice, htrade, hbuyQuantity, String.toList_inj.1 hattach⟩

end

theorem canonical_iff (params : SignDataParams) (h : 1 ≤ params.buyQuantity) : Canonical params ↔ Clean params := by
  constructor
  · intro hcanonical
    exact clean_of_parses h ((hcanonical.parses _).2 rfl)
  · intro hclean
    have htext := parses_of_clean h hclean
    refine ⟨fun j => ⟨fun hj => isText_functional hj htext, ?_⟩, signMembers_sorted params,
      fun other hother heq => unshared_of_clean h hclean hother heq⟩
    rintro rfl
    exact htext

/-- A clean order: its text is JSON and its own. -/
theorem canonical_goods : Canonical ⟨"1450", 0, "gold_60", 600, "ORDER001", 1, "a\"b\\c"⟩ :=
  (canonical_iff _ (by decide)).2 ⟨by simp, by simp [mem_escaped, quote, backslash],
    by simp [mem_escaped, quote, backslash], by simp [mem_escaped, quote, backslash]⟩

/-- A line break in `attach` stays as it is: the text is no JSON. -/
theorem line_break_kept : ¬ Canonical ⟨"1450", 0, "gold_60", 600, "ORDER001", 1, "\n"⟩ := by
  intro h
  have hclean := clean_of_parses (by decide) ((h.parses _).2 rfl)
  exact absurd (hclean.attach '\n' (by decide)) (by decide)

end Fusions.Weixin
