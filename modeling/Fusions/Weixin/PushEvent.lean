import Fusions.Hetuflow.Core.Json
import Fusions.Storage.FsUrls
import Fusions.Weixin.PushFrame
import Fusions.Weixin.XmlFields

/-! Push events of xpay, from XML and from JSON. -/
namespace Fusions.Weixin
open Fusions.Library
open Fusions.Hetuflow (Json)
open Fusions.Storage (parseI64 parseI64_toString)

inductive PushFormat where
  | xml
  | json
  deriving DecidableEq, Repr

inductive XpayEvent where
  | goodsDeliverNotify (openid outTradeNo wxOrderId productId : String) (quantity : Int64)
  | refundNotify (openid outTradeNo wxOrderId : String)
  | other (event : String) (fields : List (String × String))
  deriving DecidableEq

/-- The path of a member of a nested object. -/
def nestedField (key : String) (field : String × String) : String × String := (key ++ "." ++ field.1, field.2)

def flattenJson : List (String × Json) → List (String × String)
  | [] => []
  | (key, .str s) :: rest => (key, s) :: flattenJson rest
  | (key, .num n) :: rest => (key, toString n) :: flattenJson rest
  | (key, .decimal text) :: rest => (key, text) :: flattenJson rest
  | (key, .bool b) :: rest => (key, toString b) :: flattenJson rest
  | (key, .obj nested) :: rest => (flattenJson nested).map (nestedField key) ++ flattenJson rest
  | (_, .null) :: rest => flattenJson rest
  | (_, .arr _) :: rest => flattenJson rest

section Json
variable (obj : List (String × Json))

/-- `as_str().unwrap_or_default()` of a member. -/
def textOf (value : Option Json) : String := (value.bind Json.asStr).getD ""

/-- `Value::as_i64`. -/
def asI64 (value : Json) : Option Int64 :=
  value.asI64.bind fun n => if Int64.minValue.toInt ≤ n ∧ n ≤ Int64.maxValue.toInt then some (.ofInt n) else none

def nested (group key : String) : Option Json := (obj.lookup group).bind (·.get key)

def jsonOpenid : String :=
  let id := textOf (obj.lookup "OpenId")
  if id.isEmpty then textOf (obj.lookup "FromUserName") else id

/-- The event of an object. -/
def jsonEvent : XpayEvent :=
  let event := textOf (obj.lookup "Event")
  if event = "xpay_goods_deliver_notify" then
    .goodsDeliverNotify (jsonOpenid obj) (textOf (obj.lookup "OutTradeNo"))
      (textOf (nested obj "WeChatPayInfo" "MchOrderNo")) (textOf (nested obj "GoodsInfo" "ProductId")) (((nested obj "GoodsInfo" "Quantity").bind asI64).getD 1)
  else if event = "xpay_refund_notify" then
    .refundNotify (jsonOpenid obj) (textOf (obj.lookup "OutTradeNo")) (textOf (nested obj "WeChatPayInfo" "MchOrderNo"))
  else .other event (flattenJson obj)

end Json

def parseEventJson (fromStr : String → Except String Json) (body : String) : Except PushError XpayEvent :=
  match fromStr body with
  | .error e => .error (.invalid ("json parse: " ++ e))
  | .ok value =>
    match value.asObject with
    | none => .error (.invalid "json body not object")
    | some obj => .ok (jsonEvent obj)

def cdataTag (tag : List Char) : List Char := startTag tag ++ cdataOpen

/-- The loop over a path; the outer `none` is a slice out of bounds or inside a character. -/
def xmlScope (scope : List Char) : List String → Option (Option (List Char))
  | [] => some (some scope)
  | tag :: path =>
    let quoted := (find (cdataTag tag.toList) scope).map (· + byteLength (cdataTag tag.toList))
    match quoted.or ((find (startTag tag.toList) scope).map (· + byteLength (startTag tag.toList))) with
    | none => some none
    | some start => do
      let tail ← dropBytes scope start
      match find (endTag tag.toList) tail with
      | none => return none
      | some stop => xmlScope (← takeBytes tail stop) path

/-- `trim_end_matches("]]>")`, of a text backwards. -/
def dropCloses : List Char → List Char
  | '>' :: ']' :: ']' :: rest => dropCloses rest
  | rest => rest

def trimCloses (s : List Char) : List Char := (dropCloses s.reverse).reverse

def xmlTag (body : String) (path : List String) : Option (Option String) :=
  if path.isEmpty then some none
  else (xmlScope body.toList path).map (·.map fun scope => String.ofList (trimCloses scope))

/-- `unwrap_or_default()` of a tag. -/
def xmlText (body : String) (path : List String) : Option String := (xmlTag body path).map (·.getD "")

def xmlOpenid (body : String) : Option String := do
  match ← xmlTag body ["OpenId"] with
  | some id => return id
  | none => xmlText body ["FromUserName"]

/-- The event of an XML body; `none` is a panic. -/
def xmlEvent (body : String) : Option XpayEvent := do
  let event ← xmlText body ["Event"]
  if event = "xpay_goods_deliver_notify" then
    let quantity := (← xmlTag body ["GoodsInfo", "Quantity"]).getD "1"
    return .goodsDeliverNotify (← xmlOpenid body) (← xmlText body ["OutTradeNo"])
      (← xmlText body ["WeChatPayInfo", "MchOrderNo"]) (← xmlText body ["GoodsInfo", "ProductId"])
      ((parseI64 quantity).getD 1)
  else if event = "xpay_refund_notify" then
    return .refundNotify (← xmlOpenid body) (← xmlText body ["OutTradeNo"])
      (← xmlText body ["WeChatPayInfo", "MchOrderNo"])
  else return .other event (← xmlTopLevelFields body)

def parseEventXml (body : String) : Option (Except PushError XpayEvent) := (xmlEvent body).map .ok

def parseEvent (fromStr : String → Except String Json) (format : PushFormat) (body : String) :
    Option (Except PushError XpayEvent) :=
  match format with
  | .json => some (parseEventJson fromStr body)
  | .xml => parseEventXml body

end Fusions.Weixin
