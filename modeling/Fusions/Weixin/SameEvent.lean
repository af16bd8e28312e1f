import Fusions.Hetuflow.Core.JsonText
import Fusions.Weixin.PushEvent

/-! Records of xpay events, their XML and their JSON, and when both mean the same event. -/
namespace Fusions.Weixin
open Fusions.Library
open Fusions.Hetuflow (Json)
open Fusions.Storage (parseI64 parseI64_toString)

inductive NotifyKind where
  | goodsDeliver
  | refund
  deriving DecidableEq, Repr

def NotifyKind.event : NotifyKind → String
  | .goodsDeliver => "xpay_goods_deliver_notify"
  | .refund => "xpay_refund_notify"

/-- The names that are not for further fields. -/
def topLevelNames : List String :=
  ["ToUserName", "FromUserName", "OpenId", "Event", "OutTradeNo", "WeChatPayInfo", "GoodsInfo"]

structure PushRecord where
  kind : NotifyKind
  toUserName : String
  fromUserName : String
  openId : Option String
  outTradeNo : String
  further : List (String × String)
  mchOrderNo : String
  productId : String
  quantity : Int64
  further_new : ∀ field ∈ further, field.1 ∉ topLevelNames
  further_nodup : (further.map Prod.fst).Nodup

namespace PushRecord
variable (r : PushRecord)

/-- The texts at the top level. -/
def texts : List (String × String) :=
  [("ToUserName", r.toUserName), ("FromUserName", r.fromUserName), ("Event", r.kind.event),
    ("OutTradeNo", r.outTradeNo)] ++ r.openId.toList.map (("OpenId", ·)) ++ r.further

/-- The openid that JSON gives: an empty one is as none. -/
def openid : String := if (r.openId.getD "").isEmpty then r.fromUserName else r.openId.getD ""

def event (openid : String) : XpayEvent :=
  match r.kind with
  | .goodsDeliver => .goodsDeliverNotify openid r.outTradeNo r.mchOrderNo r.productId r.quantity
  | .refund => .refundNotify openid r.outTradeNo r.mchOrderNo

/-- The JSON of a record, with the members of each object in any order. -/
def IsJson (json : Json) : Prop :=
  ∃ members goods, json = .obj members ∧
    goods.Perm [("ProductId", .str r.productId), ("Quantity", .num r.quantity.toInt)] ∧
    members.Perm (r.texts.map (fun text => (text.1, .str text.2)) ++
      [("WeChatPayInfo", .obj [("MchOrderNo", .str r.mchOrderNo)]), ("GoodsInfo", .obj goods)])

end PushRecord

/-- A text in a section, or a number. -/
structure Leaf where
  name : String
  value : String
  quoted : Bool
  deriving DecidableEq

def Leaf.written (leaf : Leaf) : List Char :=
  startTag leaf.name.toList ++
    ((if leaf.quoted then cdataOpen ++ (leaf.value.toList ++ cdataClose) else leaf.value.toList) ++
      endTag leaf.name.toList)

/-- Elements, each with the white space in front of it, and the white space behind them. -/
structure Layout (α : Type) where
  items : List (List Char × α)
  gap : List Char
  deriving DecidableEq

section
variable {α : Type} (written : α → List Char)

def Layout.text (layout : Layout α) : List Char :=
  layout.items.flatMap (fun item => item.1 ++ written item.2) ++ layout.gap

/-- What stands in front of an item. -/
def frontOf [DecidableEq α] (x : α) : List (List Char × α) → List Char
  | [] => []
  | (gap, y) :: rest => gap ++ if y = x then [] else written y ++ frontOf x rest

end

inductive Item where
  | leaf (field : Leaf)
  | group (name : String) (inner : Layout Leaf)
  deriving DecidableEq

def Item.written : Item → List Char
  | .leaf field => field.written
  | .group name inner => startTag name.toList ++ (inner.text Leaf.written ++ endTag name.toList)

/-- The XML of a record, with the fields of each element in any order. -/
structure Rendering (r : PushRecord) where
  layout : Layout Item
  pay : Layout Leaf
  goods : Layout Leaf
  pay_eq : pay.items.map Prod.snd = [⟨"MchOrderNo", r.mchOrderNo, true⟩]
  goods_perm : (goods.items.map Prod.snd).Perm
    [⟨"ProductId", r.productId, true⟩, ⟨"Quantity", toString r.quantity, false⟩]
  perm : (layout.items.map Prod.snd).Perm
    (r.texts.map (fun text => .leaf ⟨text.1, text.2, true⟩) ++
      [.group "WeChatPayInfo" pay, .group "GoodsInfo" goods])
  gaps : ∀ gap ∈ layout.gap :: pay.gap :: goods.gap :: (layout.items.map Prod.fst ++ pay.items.map Prod.fst ++
    goods.items.map Prod.fst), IsGap gap
  unclosed : ∀ text ∈ r.mchOrderNo :: r.productId :: r.texts.map Prod.snd, ¬cdataClose <:+: text.toList

namespace Rendering
variable {r : PushRecord} (R : Rendering r)

def text : List Char := startTag "xml".toList ++ (R.layout.text Item.written ++ endTag "xml".toList)

/-- What stands in front of an element at the top level. -/
def front (item : Item) : List Char := startTag "xml".toList ++ frontOf Item.written item R.layout.items

/-- The element of a text is where the search for it ends: its tag stands in no text in front, its end tag not in
its own text. -/
structure OwnText (name value : String) : Prop where
  first : ¬cdataTag name.toList <:+: R.front (.leaf ⟨name, value, true⟩)
  closed : ¬endTag name.toList <:+: value.toList

/-- The same of an element with elements in it. -/
structure OwnGroup (name : String) (inner : Layout Leaf) : Prop where
  unquoted : ¬cdataTag name.toList <:+: R.text
  first : ¬startTag name.toList <:+: R.front (.group name inner)
  closed : ¬endTag name.toList <:+: inner.text Leaf.written

/-- No text has a tag that a search finds in place of the element searched for. -/
structure OwnFirst : Prop where
  event : R.OwnText "Event" r.kind.event
  openId : ∀ id, r.openId = some id → R.OwnText "OpenId" id
  absent : r.openId = none → ∀ a b, R.text = a ++ (startTag "OpenId".toList ++ b) → ¬endTag "OpenId".toList <:+: b
  fromUserName : r.openId = none → R.OwnText "FromUserName" r.fromUserName
  outTradeNo : R.OwnText "OutTradeNo" r.outTradeNo
  pay : R.OwnGroup "WeChatPayInfo" R.pay
  mchOrderNo : ¬endTag "MchOrderNo".toList <:+: r.mchOrderNo.toList
  goods : r.kind = .goodsDeliver → R.OwnGroup "GoodsInfo" R.goods
  productIdFirst : r.kind = .goodsDeliver →
    ¬cdataTag "ProductId".toList <:+: frontOf Leaf.written ⟨"ProductId", r.productId, true⟩ R.goods.items
  productId : r.kind = .goodsDeliver → ¬endTag "ProductId".toList <:+: r.productId.toList
  quantityUnquoted : r.kind = .goodsDeliver → ¬cdataTag "Quantity".toList <:+: R.goods.text Leaf.written
  quantityFirst : r.kind = .goodsDeliver →
    ¬startTag "Quantity".toList <:+: frontOf Leaf.written ⟨"Quantity", toString r.quantity, false⟩ R.goods.items

end Rendering

/-! The searches of a path. -/

/-- The names of tags that are searched for. -/
structure IsTag (tag : List Char) : Prop extends IsName tag where
  section_notMem : ']' ∉ tag

section
variable {scope front body after tag : List Char} {path : List String}

theorem isTag_of_letters (h : tag.all Char.isAlpha = true) : IsTag tag := by
  have hletter : ∀ c ∈ tag, c.isAlpha = true := List.all_eq_true.1 h
  have hnot {c : Char} (hc : c.isAlpha = false) : c ∉ tag := fun hmem => absurd (hletter c hmem) (by rw [hc]; decide)
  refine ⟨⟨hnot (by decide), hnot (by decide), fun c hc => ?_⟩, hnot (by decide)⟩
  have hmem := List.mem_of_mem_head? hc
  rw [isSpecial, Bool.or_eq_false_iff, Bool.or_eq_false_iff]
  refine ⟨⟨?_, ?_⟩, ?_⟩ <;> exact beq_eq_false_iff_ne.2 fun heq => hnot (by decide) (heq ▸ hmem)

theorem unbordered_startTag (h : '>' ∉ tag) : Unbordered (startTag tag) := by
  have hlast : '>' ∉ '<' :: tag := by
    rw [List.mem_cons, not_or]
    exact ⟨by decide, h⟩
  exact unbordered_last hlast

theorem unbordered_endTag (h : '>' ∉ tag) : Unbordered (endTag tag) := by
  have hlast : '>' ∉ '<' :: '/' :: tag := by
    simp only [List.mem_cons, not_or]
    exact ⟨by decide, by decide, h⟩
  exact unbordered_last hlast

theorem unbordered_cdataTag (h : IsName tag) : Unbordered (cdataTag tag) := by
  intro front back hsplit hfront hprefix
  cases back with
  | nil => rfl
  | cons c back =>
    cases front with
    | nil => exact absurd rfl hfront
    | cons d front =>
      obtain ⟨rfl, -⟩ := List.cons_prefix_cons.1 hprefix
      have hbehind : tag ++ ['>'] ++ '<' :: cdataOpen.tail = front ++ '<' :: back := (List.cons.inj hsplit).2
      have htag : '<' ∉ tag ++ ['>'] := fun hmem =>
        (List.mem_append.1 hmem).elim h.bracket (by decide)
      obtain ⟨-, -, rfl⟩ := (List.append_cons_inj_of_notMem htag (by decide)).1 hbehind
      obtain ⟨e, more, hstart, he⟩ := exists_startTag h cdataOpen
      rw [cdataTag, hstart] at hprefix
      exact absurd (List.cons_prefix_cons.1 (List.cons_prefix_cons.1 hprefix).2).1.symm he

/-- A section in a scope is what the next name of a path stands for. -/
theorem xmlScope_quoted {tag : String} (htag : IsName tag.toList)
    (hscope : scope = front ++ (cdataTag tag.toList ++ (body ++ (endTag tag.toList ++ after))))
    (hfirst : ¬cdataTag tag.toList <:+: front) (hclosed : ¬endTag tag.toList <:+: body) :
    xmlScope scope (tag :: path) = xmlScope body path := by
  have hstart := ((unbordered_cdataTag htag).foundAt hfirst (body ++ (endTag tag.toList ++ after))).find_eq
  have hstop := ((unbordered_endTag htag.close).foundAt hclosed after).find_eq
  have htail := dropBytes_append front (cdataTag tag.toList ++ (body ++ (endTag tag.toList ++ after)))
    (byteLength (cdataTag tag.toList))
  rw [dropBytes_byteLength] at htail
  rw [← hscope] at hstart htail
  rw [xmlScope, hstart]
  dsimp only [Option.map_some, Option.some_or]
  rw [htail, Option.bind_eq_bind, Option.bind_some, hstop]
  dsimp only
  rw [takeBytes_byteLength]
  rfl

theorem xmlScope_plain {tag : String} (htag : IsName tag.toList) (hunquoted : ¬cdataTag tag.toList <:+: scope)
    (hscope : scope = front ++ (startTag tag.toList ++ (body ++ (endTag tag.toList ++ after))))
    (hfirst : ¬startTag tag.toList <:+: front) (hclosed : ¬endTag tag.toList <:+: body) :
    xmlScope scope (tag :: path) = xmlScope body path := by
  have hstart := ((unbordered_startTag htag.close).foundAt hfirst (body ++ (endTag tag.toList ++ after))).find_eq
  have hstop := ((unbordered_endTag htag.close).foundAt hclosed after).find_eq
  have htail := dropBytes_append front (startTag tag.toList ++ (body ++ (endTag tag.toList ++ after)))
    (byteLength (startTag tag.toList))
  rw [dropBytes_byteLength] at htail
  rw [← hscope] at hstart htail
  rw [xmlScope, hstart, find_none hunquoted]
  dsimp only [Option.map_some, Option.map_none, Option.none_or]
  rw [htail, Option.bind_eq_bind, Option.bind_some, hstop]
  dsimp only
  rw [takeBytes_byteLength]
  rfl

/-- Nothing is found where no end tag stands behind a tag. -/
theorem xmlScope_absent {tag : String}
    (h : ∀ a b, scope = a ++ (startTag tag.toList ++ b) → ¬endTag tag.toList <:+: b) :
    xmlScope scope (tag :: path) = some none := by
  have hbehind {tail before after : List Char} (hat : FoundAt (startTag tag.toList ++ tail) scope before after) :
      find (endTag tag.toList) after = none := by
    refine find_none fun hin => h before (tail ++ after) ?_ (hin.trans (List.suffix_append tail after).isInfix)
    rw [hat.eq, List.append_assoc]
  have hdrop {before after pat : List Char} (hat : FoundAt pat scope before after) :
      dropBytes scope (byteLength before + byteLength pat) = some after := by
    rw [hat.eq, dropBytes_append, dropBytes_byteLength]
  rw [xmlScope]
  obtain ⟨hfind, -⟩ | ⟨before, after, hfind, hat⟩ := find_cases (cdataTag tag.toList) scope
  · obtain ⟨hplain, -⟩ | ⟨before, after, hplain, hat⟩ := find_cases (startTag tag.toList) scope
    · rw [hfind, hplain]
      rfl
    · rw [hfind, hplain]
      dsimp only [Option.map_some, Option.map_none, Option.none_or]
      have hat' : FoundAt (startTag tag.toList ++ []) scope before after := by
        rw [List.append_nil]
        exact hat
      rw [hdrop hat, Option.bind_eq_bind, Option.bind_some, hbehind hat']
      rfl
  · rw [hfind]
    dsimp only [Option.map_some, Option.some_or]
    rw [hdrop hat, Option.bind_eq_bind, Option.bind_some, hbehind hat]
    rfl

theorem dropCloses_eq {s : List Char} (h : ¬['>', ']', ']'] <+: s) : dropCloses s = s := by
  unfold dropCloses
  split
  · next rest => exact absurd ⟨rest, rfl⟩ h
  · rfl

theorem trimCloses_eq {s : List Char} (h : ¬cdataClose <:+: s) : trimCloses s = s := by
  have hback : ¬['>', ']', ']'] <+: s.reverse := by
    intro hprefix
    rw [← List.reverse_suffix, List.reverse_reverse] at hprefix
    exact h hprefix.isInfix
  rw [trimCloses, dropCloses_eq hback, List.reverse_reverse]

theorem trimCloses_close {s : List Char} (h : ¬cdataClose <:+: s) : trimCloses (s ++ cdataClose) = s := by
  have hstep : dropCloses (s ++ cdataClose).reverse = dropCloses s.reverse := by
    rw [List.reverse_append]
    rfl
  rw [trimCloses, hstep]
  exact trimCloses_eq h

theorem endTag_notInfix {value : List Char} (htag : IsTag tag) (h : ¬endTag tag <:+: value) :
    ¬endTag tag <:+: value ++ cdataClose := by
  have hclose : ']' ∉ endTag tag := by
    simp only [endTag, List.mem_cons, List.mem_append, not_or]
    exact ⟨by decide, by decide, htag.section_notMem, by decide, List.not_mem_nil⟩
  intro hin
  obtain hin | hin := infix_append_cons hclose hin
  · exact h hin
  obtain hin | hin := infix_append_cons (s := []) hclose hin
  · exact absurd (List.infix_nil.1 hin) (List.cons_ne_nil _ _)
  · exact absurd (hin.subset List.mem_cons_self) (by decide)

section
variable {α : Type} [DecidableEq α]

/-- A layout is what stands in front of an item, the item, and what stands behind it. -/
theorem Layout.exists_after (written : α → List Char) {layout : Layout α} {x : α} (h : x ∈ layout.items.map Prod.snd) :
    ∃ after, layout.text written = frontOf written x layout.items ++ (written x ++ after) := by
  obtain ⟨items, gap⟩ := layout
  show ∃ after, items.flatMap _ ++ gap = _
  induction items with
  | nil => cases h
  | cons item items ih =>
    obtain ⟨space, y⟩ := item
    rw [List.flatMap_cons, frontOf]
    by_cases hy : y = x
    · subst hy
      exact ⟨items.flatMap (fun item => item.1 ++ written item.2) ++ gap, by simp⟩
    · obtain ⟨after, hafter⟩ := ih ((List.mem_cons.1 h).resolve_left (Ne.symm hy))
      exact ⟨after, by rw [if_neg hy, List.append_assoc, hafter]; simp⟩

end

/-- A quoted leaf of a scope is what its name stands for. -/
theorem xmlScope_leaf {name value : String} (htag : IsTag name.toList)
    (hscope : scope = front ++ ((Leaf.mk name value true).written ++ after))
    (hfirst : ¬cdataTag name.toList <:+: front) (hclosed : ¬endTag name.toList <:+: value.toList) :
    xmlScope scope [name] = some (some (value.toList ++ cdataClose)) := by
  have hsplit : scope = front ++ (cdataTag name.toList ++
      ((value.toList ++ cdataClose) ++ (endTag name.toList ++ after))) := by
    rw [hscope, Leaf.written, cdataTag]
    simp only [List.append_assoc, if_true]
  exact (xmlScope_quoted htag.toIsName hsplit hfirst (endTag_notInfix htag hclosed)).trans rfl

theorem xmlTag_eq {body : String} {tag : String} {scope : List Char}
    (h : xmlScope body.toList (tag :: path) = some (some scope)) :
    xmlTag body (tag :: path) = some (some (String.ofList (trimCloses scope))) := by
  rw [xmlTag, h]
  rfl

namespace PushRecord
variable {r : PushRecord}

theorem mem_known {text : String × String}
    (h : text ∈ [("ToUserName", r.toUserName), ("FromUserName", r.fromUserName), ("Event", r.kind.event),
      ("OutTradeNo", r.outTradeNo)]) : text ∈ r.texts :=
  List.mem_append_left _ (List.mem_append_left _ h)

theorem mem_fromUserName : ("FromUserName", r.fromUserName) ∈ r.texts := mem_known (by simp)

theorem mem_event : ("Event", r.kind.event) ∈ r.texts := mem_known (by simp)

theorem mem_outTradeNo : ("OutTradeNo", r.outTradeNo) ∈ r.texts := mem_known (by simp)

theorem mem_openId {id : String} (h : r.openId = some id) : ("OpenId", id) ∈ r.texts := by
  rw [texts, h]
  exact List.mem_append_left _ (List.mem_append_right _ List.mem_cons_self)

end PushRecord

namespace Rendering
variable {r : PushRecord} {R : Rendering r} {name value : String}

theorem exists_after {item : Item} (h : item ∈ R.layout.items.map Prod.snd) :
    ∃ after, R.text = R.front item ++ (item.written ++ after) := by
  obtain ⟨after, hafter⟩ := Layout.exists_after Item.written h
  exact ⟨after ++ endTag "xml".toList, by rw [text, Rendering.front, hafter]; simp only [List.append_assoc]⟩

theorem mem_layout (h : (name, value) ∈ r.texts) : .leaf ⟨name, value, true⟩ ∈ R.layout.items.map Prod.snd :=
  R.perm.mem_iff.2 (List.mem_append_left _ (List.mem_map.2 ⟨_, h, rfl⟩))

/-- The search for a text at the top level finds the text. -/
theorem xmlTag_text (h : (name, value) ∈ r.texts) (htag : IsTag name.toList) (hown : R.OwnText name value) :
    xmlTag (String.ofList R.text) [name] = some (some value) := by
  obtain ⟨after, hafter⟩ := exists_after (mem_layout (R := R) h)
  have hclean := R.unclosed value (List.mem_cons_of_mem _ (List.mem_cons_of_mem _ (List.mem_map.2 ⟨_, h, rfl⟩)))
  have hscope := xmlScope_leaf htag hafter hown.first hown.closed
  rw [← String.toList_ofList (l := R.text)] at hscope
  rw [xmlTag_eq hscope, trimCloses_close hclean, String.ofList_toList]

/-- The search for an element with elements in it goes on with these. -/
theorem xmlScope_group {inner : Layout Leaf} (h : .group name inner ∈ R.layout.items.map Prod.snd)
    (htag : IsName name.toList) (hown : R.OwnGroup name inner) :
    xmlScope R.text (name :: path) = xmlScope (inner.text Leaf.written) path := by
  obtain ⟨after, hafter⟩ := exists_after h
  have hsplit : R.text = R.front (.group name inner) ++
      (startTag name.toList ++ (inner.text Leaf.written ++ (endTag name.toList ++ after))) := by
    rw [hafter, Item.written]
    simp only [List.append_assoc]
  exact xmlScope_plain htag hown.unquoted hsplit hown.first hown.closed

theorem mem_groups {item : Item} (h : item ∈ [.group "WeChatPayInfo" R.pay, .group "GoodsInfo" R.goods]) :
    item ∈ R.layout.items.map Prod.snd :=
  R.perm.mem_iff.2 (List.mem_append_right _ h)

/-- White space stands in front of the only text in its element. -/
theorem mchOrderNo_first :
    ¬cdataTag "MchOrderNo".toList <:+: frontOf Leaf.written ⟨"MchOrderNo", r.mchOrderNo, true⟩ R.pay.items := by
  obtain ⟨⟨gap, leaf⟩, hitems, hleaf⟩ := List.map_eq_singleton_iff.1 R.pay_eq
  have hgap : IsGap gap := R.gaps gap (by simp [hitems])
  obtain rfl : leaf = _ := hleaf
  rw [hitems, frontOf, if_pos rfl, List.append_nil]
  exact fun hin => hgap.bracket_notMem (hin.subset List.mem_cons_self)

theorem xmlTag_mchOrderNo (hown : R.OwnFirst) :
    xmlTag (String.ofList R.text) ["WeChatPayInfo", "MchOrderNo"] = some (some r.mchOrderNo) := by
  have hmem : (⟨"MchOrderNo", r.mchOrderNo, true⟩ : Leaf) ∈ R.pay.items.map Prod.snd := by
    rw [R.pay_eq]
    exact List.mem_singleton_self _
  obtain ⟨after, hafter⟩ := Layout.exists_after Leaf.written hmem
  have hscope := (xmlScope_group (mem_groups List.mem_cons_self) (isTag_of_letters (by decide)).toIsName hown.pay).trans
    (xmlScope_leaf (isTag_of_letters (by decide)) hafter mchOrderNo_first hown.mchOrderNo)
  have hclean := R.unclosed r.mchOrderNo List.mem_cons_self
  rw [← String.toList_ofList (l := R.text)] at hscope
  rw [xmlTag_eq hscope, trimCloses_close hclean, String.ofList_toList]

theorem xmlTag_productId (hown : R.OwnFirst) (hkind : r.kind = .goodsDeliver) :
    xmlTag (String.ofList R.text) ["GoodsInfo", "ProductId"] = some (some r.productId) := by
  have hmem : (⟨"ProductId", r.productId, true⟩ : Leaf) ∈ R.goods.items.map Prod.snd :=
    R.goods_perm.mem_iff.2 List.mem_cons_self
  obtain ⟨after, hafter⟩ := Layout.exists_after Leaf.written hmem
  have htag : IsTag "GoodsInfo".toList := isTag_of_letters (by decide)
  have hscope := (xmlScope_group (mem_groups (by simp)) htag.toIsName (hown.goods hkind)).trans
    (xmlScope_leaf (isTag_of_letters (by decide)) hafter (hown.productIdFirst hkind) (hown.productId hkind))
  have hclean := R.unclosed r.productId (List.mem_cons_of_mem _ List.mem_cons_self)
  rw [← String.toList_ofList (l := R.text)] at hscope
  rw [xmlTag_eq hscope, trimCloses_close hclean, String.ofList_toList]

theorem number_notMem (n : Int64) {c : Char} (hc : c.isDigit = false) (hminus : c ≠ '-') : c ∉ (toString n).toList := by
  intro hmem
  obtain hdigit | hsign := Hetuflow.Json.int_chars (n := n.toInt) hmem
  · rw [hc] at hdigit
    cases hdigit
  · exact hminus hsign

theorem xmlTag_quantity (hown : R.OwnFirst) (hkind : r.kind = .goodsDeliver) :
    xmlTag (String.ofList R.text) ["GoodsInfo", "Quantity"] = some (some (toString r.quantity)) := by
  have hmem : (⟨"Quantity", toString r.quantity, false⟩ : Leaf) ∈ R.goods.items.map Prod.snd :=
    R.goods_perm.mem_iff.2 (List.mem_cons_of_mem _ List.mem_cons_self)
  obtain ⟨after, hafter⟩ := Layout.exists_after Leaf.written hmem
  have hclosed : ¬endTag "Quantity".toList <:+: (toString r.quantity).toList := fun hin =>
    absurd (hin.subset List.mem_cons_self) (number_notMem r.quantity rfl (by decide))
  have hsplit : R.goods.text Leaf.written =
      frontOf Leaf.written ⟨"Quantity", toString r.quantity, false⟩ R.goods.items ++
        (startTag "Quantity".toList ++ ((toString r.quantity).toList ++ (endTag "Quantity".toList ++ after))) := by
    rw [hafter, Leaf.written]
    simp only [List.append_assoc]
    rfl
  have hleaf : xmlScope (R.goods.text Leaf.written) ["Quantity"] = some (some (toString r.quantity).toList) :=
    xmlScope_plain (isTag_of_letters (by decide)).toIsName (hown.quantityUnquoted hkind) hsplit
      (hown.quantityFirst hkind) hclosed
  have htag : IsTag "GoodsInfo".toList := isTag_of_letters (by decide)
  have hscope := (xmlScope_group (mem_groups (by simp)) htag.toIsName (hown.goods hkind)).trans
    hleaf
  have hclean : ¬cdataClose <:+: (toString r.quantity).toList := fun hin =>
    absurd (hin.subset (List.mem_cons_self : ']' ∈ cdataClose)) (number_notMem r.quantity rfl (by decide))
  rw [← String.toList_ofList (l := R.text)] at hscope
  rw [xmlTag_eq hscope, trimCloses_eq hclean, String.ofList_toList]

theorem xmlOpenid_eq (hown : R.OwnFirst) : xmlOpenid (String.ofList R.text) = some (r.openId.getD r.fromUserName) := by
  rw [xmlOpenid]
  cases hid : r.openId with
  | some id =>
    rw [xmlTag_text (PushRecord.mem_openId hid) (isTag_of_letters (by decide)) (hown.openId id hid)]
    rfl
  | none =>
    have habsent : xmlTag (String.ofList R.text) ["OpenId"] = some none := by
      rw [xmlTag, String.toList_ofList, xmlScope_absent (hown.absent hid)]
      rfl
    rw [habsent, Option.bind_eq_bind, Option.bind_some]
    dsimp only
    rw [xmlText, xmlTag_text PushRecord.mem_fromUserName (isTag_of_letters (by decide)) (hown.fromUserName hid)]
    rfl

/-- The XML of a record is read as its event, with the first openid that is there, be it empty or not. -/
theorem parseEvent_xml (fromStr : String → Except String Json) (hown : R.OwnFirst) :
    parseEvent fromStr .xml (String.ofList R.text) = some (.ok (r.event (r.openId.getD r.fromUserName))) := by
  have hevent := xmlTag_text PushRecord.mem_event (isTag_of_letters (by decide)) hown.event
  have htrade := xmlTag_text PushRecord.mem_outTradeNo (isTag_of_letters (by decide)) hown.outTradeNo
  rw [parseEvent, parseEventXml, xmlEvent, xmlText, hevent, xmlOpenid_eq hown, xmlText, htrade, xmlText,
    xmlTag_mchOrderNo hown, PushRecord.event]
  cases hkind : r.kind with
  | refund => rfl
  | goodsDeliver =>
    rw [xmlTag_quantity hown hkind, xmlText, xmlTag_productId hown hkind]
    show some (Except.ok (XpayEvent.goodsDeliverNotify _ _ _ _ ((parseI64 (toString r.quantity)).getD 1))) = _
    rw [parseI64_toString]
    rfl

end Rendering

namespace PushRecord
variable {r : PushRecord}

theorem names_nodup : (r.texts.map Prod.fst ++ ["WeChatPayInfo", "GoodsInfo"]).Nodup := by
  have hknown {known : List String} (h : known ⊆ topLevelNames) :
      ∀ a ∈ known, ∀ b ∈ r.further.map Prod.fst, a ≠ b := by
    rintro name hname other hother rfl
    obtain ⟨field, hfield, rfl⟩ := List.mem_map.1 hother
    exact r.further_new field hfield (h hname)
  rw [texts, List.map_append, List.append_assoc, (List.perm_append_comm.append_left _).nodup_iff,
    ← List.append_assoc, List.nodup_append]
  cases r.openId with
  | none =>
    let known := ["ToUserName", "FromUserName", "Event", "OutTradeNo", "WeChatPayInfo", "GoodsInfo"]
    have hnodup : known.Nodup := by decide
    have hsub : known ⊆ topLevelNames := by decide
    exact ⟨hnodup, r.further_nodup, hknown hsub⟩
  | some id =>
    let known := ["ToUserName", "FromUserName", "Event", "OutTradeNo", "OpenId", "WeChatPayInfo", "GoodsInfo"]
    have hnodup : known.Nodup := by decide
    have hsub : known ⊆ topLevelNames := by decide
    exact ⟨hnodup, r.further_nodup, hknown hsub⟩

theorem openId_notMem (h : r.openId = none) : "OpenId" ∉ r.texts.map Prod.fst ++ ["WeChatPayInfo", "GoodsInfo"] := by
  intro hmem
  rw [texts, h] at hmem
  have hfurther : "OpenId" ∈ r.further.map Prod.fst := by
    simpa using hmem
  obtain ⟨field, hfield, hname⟩ := List.mem_map.1 hfurther
  exact r.further_new field hfield (by rw [hname]; decide)

/-- The JSON of a record is read as its event. -/
theorem parseEvent_json {fromStr : String → Except String Json} {json : Json} {body : String}
    (hbody : fromStr body = .ok json) (hjson : r.IsJson json) :
    parseEvent fromStr .json body = some (.ok (r.event r.openid)) := by
  obtain ⟨members, goods, rfl, hgoods, hmembers⟩ := hjson
  have hkeys : (members.map Prod.fst).Perm (r.texts.map Prod.fst ++ ["WeChatPayInfo", "GoodsInfo"]) := by
    have hmap := hmembers.map Prod.fst
    rw [List.map_append, List.map_map] at hmap
    exact hmap
  have hnames : (members.map Prod.fst).Nodup := hkeys.nodup_iff.2 names_nodup
  have htext {name value : String} (h : (name, value) ∈ r.texts) : textOf (members.lookup name) = value := by
    have hmem : (name, Json.str value) ∈ members :=
      hmembers.mem_iff.2 (List.mem_append_left _ (List.mem_map.2 ⟨_, h, rfl⟩))
    rw [Json.lookup_eq_of_mem hnames hmem]
    rfl
  have hgroup {name : String} {value : Json}
      (h : (name, value) ∈ [("WeChatPayInfo", .obj [("MchOrderNo", .str r.mchOrderNo)]), ("GoodsInfo", .obj goods)])
      (key : String) : nested members name key = value.get key := by
    rw [nested, Json.lookup_eq_of_mem hnames (hmembers.mem_iff.2 (List.mem_append_right _ h))]
    rfl
  have hgoodsNames : (goods.map Prod.fst).Nodup := by
    rw [(hgoods.map Prod.fst).nodup_iff]
    show ["ProductId", "Quantity"].Nodup
    decide
  have hopenid : jsonOpenid members = r.openid := by
    rw [jsonOpenid, htext mem_fromUserName, openid]
    cases hid : r.openId with
    | none =>
      have hnone := openId_notMem hid
      have hnone : members.lookup "OpenId" = none := by
        rw [← hkeys.mem_iff] at hnone
        exact Json.lookup_eq_none_of_notMem hnone
      rw [hnone]
      rfl
    | some id =>
      rw [htext (mem_openId hid)]
      rfl
  have hproduct : (Json.obj goods).get "ProductId" = some (.str r.productId) :=
    Json.lookup_eq_of_mem hgoodsNames (hgoods.mem_iff.2 List.mem_cons_self)
  have hquantity : (Json.obj goods).get "Quantity" = some (.num r.quantity.toInt) :=
    Json.lookup_eq_of_mem hgoodsNames (hgoods.mem_iff.2 (List.mem_cons_of_mem _ List.mem_cons_self))
  have hnumber : asI64 (.num r.quantity.toInt) = some r.quantity := by
    rw [asI64, Json.asI64_num, Option.bind_some, if_pos ⟨r.quantity.minValue_le_toInt, r.quantity.toInt_le⟩,
      Int64.ofInt_toInt]
  rw [parseEvent, parseEventJson, hbody]
  dsimp only [Json.asObject]
  rw [jsonEvent, hopenid, htext mem_event, htext mem_outTradeNo,
    hgroup List.mem_cons_self, hgroup (List.mem_cons_of_mem _ List.mem_cons_self),
    hgroup (List.mem_cons_of_mem _ List.mem_cons_self), hproduct, hquantity, event, Option.bind_some, hnumber]
  cases r.kind <;> rfl

theorem event_inj {openid openid' : String} (h : r.event openid = r.event openid') : openid = openid' := by
  unfold event at h
  cases hkind : r.kind with
  | goodsDeliver =>
    rw [hkind] at h
    exact (XpayEvent.goodsDeliverNotify.inj h).1
  | refund =>
    rw [hkind] at h
    exact (XpayEvent.refundNotify.inj h).1

theorem openid_iff : r.openId.getD r.fromUserName = r.openid ↔ ¬(r.openId = some "" ∧ r.fromUserName ≠ "") := by
  unfold openid
  cases r.openId with
  | none => simp
  | some id =>
    rw [Option.getD_some, Option.getD_some]
    by_cases hid : id = ""
    · rw [if_pos (String.isEmpty_iff.2 hid), hid, eq_comm]
      exact ⟨fun h hboth => hboth.2 h, fun h => Decidable.byContradiction fun hne => h ⟨rfl, hne⟩⟩
    · rw [if_neg (mt String.isEmpty_iff.1 hid)]
      exact ⟨fun _ hboth => hid (Option.some.inj hboth.1), fun _ => rfl⟩

end PushRecord

theorem same_event_iff {r : PushRecord} {R : Rendering r} (hown : R.OwnFirst) {fromStr : String → Except String Json}
    {json : Json} {body : String} (hbody : fromStr body = .ok json) (hjson : r.IsJson json) :
    parseEvent fromStr .xml (String.ofList R.text) = parseEvent fromStr .json body ↔
      ¬(r.openId = some "" ∧ r.fromUserName ≠ "") := by
  rw [Rendering.parseEvent_xml fromStr hown, PushRecord.parseEvent_json hbody hjson, ← PushRecord.openid_iff]
  constructor
  · intro h
    exact PushRecord.event_inj (Except.ok.inj (Option.some.inj h))
  · intro h
    rw [h]

end

/-- A refund of one order, with an openid. -/
def sampleRecord (openId : String) : PushRecord where
  kind := .refund
  toUserName := "g"
  fromUserName := "u"
  openId := some openId
  outTradeNo := "t"
  further := []
  mchOrderNo := "m"
  productId := "p"
  quantity := 1
  further_new := nofun
  further_nodup := List.nodup_nil

def samplePay : Layout Leaf := ⟨[([], ⟨"MchOrderNo", "m", true⟩)], []⟩

def sampleGoods : Layout Leaf := ⟨[([], ⟨"ProductId", "p", true⟩), ([], ⟨"Quantity", "1", false⟩)], []⟩

def sampleLayout (openId : String) : Layout Item :=
  ⟨[([], .leaf ⟨"ToUserName", "g", true⟩), ([], .leaf ⟨"FromUserName", "u", true⟩),
    ([], .leaf ⟨"Event", "xpay_refund_notify", true⟩), ([], .leaf ⟨"OutTradeNo", "t", true⟩),
    ([], .leaf ⟨"OpenId", openId, true⟩), ([], .group "WeChatPayInfo" samplePay),
    ([], .group "GoodsInfo" sampleGoods)], []⟩

def sampleRendering (openId : String) (h : ¬cdataClose <:+: openId.toList) : Rendering (sampleRecord openId) where
  layout := sampleLayout openId
  pay := samplePay
  goods := sampleGoods
  pay_eq := rfl
  goods_perm := by
    have hquantity : toString (1 : Int64) = "1" := by decide +kernel
    show List.Perm _ [(_ : Leaf), (⟨"Quantity", toString (1 : Int64), false⟩ : Leaf)]
    rw [hquantity]
    exact .of_eq rfl
  perm := .of_eq rfl
  gaps := by simp [sampleLayout, samplePay, sampleGoods, IsGap]
  unclosed := by
    have hplain : ∀ text ∈ ["m", "p", "g", "u", "xpay_refund_notify", "t"], ¬cdataClose <:+: text.toList := by decide
    intro text htext
    have hmem : text ∈ ["m", "p", "g", "u", "xpay_refund_notify", "t"] ++ [openId] := htext
    rcases List.mem_append.1 hmem with hmem | hmem
    · exact hplain text hmem
    · rwa [List.mem_singleton.1 hmem]

def sampleJson (openId : String) : Json :=
  .obj [("ToUserName", .str "g"), ("FromUserName", .str "u"), ("Event", .str "xpay_refund_notify"),
    ("OutTradeNo", .str "t"), ("OpenId", .str openId), ("WeChatPayInfo", .obj [("MchOrderNo", .str "m")]),
    ("GoodsInfo", .obj [("ProductId", .str "p"), ("Quantity", .num 1)])]

/-- A parser that knows one text. -/
def readSample (openId body : String) : Except String Json :=
  if body = (sampleJson openId).text then .ok (sampleJson openId)
  else .error "expected value at line 1 column 1"

theorem isJson_sample (openId : String) : (sampleRecord openId).IsJson (sampleJson openId) :=
  ⟨_, _, rfl, .refl _, .refl _⟩

/-- What is searched for in a refund. -/
theorem ownFirst_refund {r : PushRecord} {R : Rendering r} {id : String} (hkind : r.kind = .refund)
    (hid : r.openId = some id) (hevent : R.OwnText "Event" r.kind.event) (hopenId : R.OwnText "OpenId" id)
    (htrade : R.OwnText "OutTradeNo" r.outTradeNo) (hpay : R.OwnGroup "WeChatPayInfo" R.pay)
    (hmch : ¬endTag "MchOrderNo".toList <:+: r.mchOrderNo.toList) : R.OwnFirst := by
  have hno : r.kind ≠ .goodsDeliver := by
    rw [hkind]
    decide
  have hsome : r.openId ≠ none := by
    rw [hid]
    exact Option.some_ne_none id
  refine ⟨hevent, fun id' h => ?_, fun h => absurd h hsome, fun h => absurd h hsome, htrade, hpay, hmch,
    fun h => absurd h hno, fun h => absurd h hno, fun h => absurd h hno, fun h => absurd h hno, fun h => absurd h hno⟩
  obtain rfl := Option.some.inj (hid.symm.trans h)
  exact hopenId

theorem ownFirst_empty : (sampleRendering "" (by decide)).OwnFirst :=
  ownFirst_refund rfl rfl ⟨by decide +kernel, by decide +kernel⟩ ⟨by decide +kernel, by decide +kernel⟩
    ⟨by decide +kernel, by decide +kernel⟩ ⟨by decide +kernel, by decide +kernel, by decide +kernel⟩ (by decide +kernel)

theorem ownFirst_given : (sampleRendering "o" (by decide)).OwnFirst :=
  ownFirst_refund rfl rfl ⟨by decide +kernel, by decide +kernel⟩ ⟨by decide +kernel, by decide +kernel⟩
    ⟨by decide +kernel, by decide +kernel⟩ ⟨by decide +kernel, by decide +kernel, by decide +kernel⟩ (by decide +kernel)

/-- An empty openid is the sender in JSON, and nobody in XML. -/
theorem empty_openid : ¬∀ (r : PushRecord) (R : Rendering r) (fromStr : String → Except String Json) (json : Json)
    (body : String), fromStr body = .ok json → r.IsJson json →
      parseEvent fromStr .xml (String.ofList R.text) = parseEvent fromStr .json body := by
  intro h
  have hsame := h (sampleRecord "") (sampleRendering "" (by decide)) (readSample "") _
    (sampleJson "").text (if_pos rfl) (isJson_sample "")
  rw [Rendering.parseEvent_xml _ ownFirst_empty, PushRecord.parseEvent_json (if_pos rfl) (isJson_sample "")] at hsame
  have hopenid : "" = "u" := PushRecord.event_inj (Except.ok.inj (Option.some.inj hsame))
  exact absurd hopenid (by decide)

theorem same_event_given :
    parseEvent (readSample "o") .xml (String.ofList (sampleRendering "o" (by decide)).text) =
      parseEvent (readSample "o") .json (sampleJson "o").text :=
  (same_event_iff ownFirst_given (if_pos rfl) (isJson_sample "o")).2 fun h => absurd h.1 (by decide)

end Fusions.Weixin
