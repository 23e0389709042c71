import Mathlib.Data.Nat.Cast.Order.Ring
import Mathlib.Algebra.Order.Ring.Rat
import MxAgent.Protocol.Value

/-! The JavaScript values that the delivery driver computes with. -/
namespace MxAgent.Adw

open Protocol

/-- What depends on tables of the language: `toLowerCase`, and `String(value)` of JSON. -/
structure Js where
  toLowerCase : String → String
  text : Value → String

/-- A number, as far as comparisons tell it apart. -/
inductive JsNumber where
  | nan
  | negInfinity
  | finite (value : ℚ)
  | posInfinity
  deriving DecidableEq

namespace JsNumber

def ofNat (value : Nat) : JsNumber := .finite value

def lt : JsNumber → JsNumber → Bool
  | .nan, _ | _, .nan => false
  | .finite a, .finite b => decide (a < b)
  | .negInfinity, .negInfinity => false
  | .negInfinity, _ => true
  | .finite _, .posInfinity => true
  | _, _ => false

def le : JsNumber → JsNumber → Bool
  | .nan, _ | _, .nan => false
  | .finite a, .finite b => decide (a ≤ b)
  | .negInfinity, _ => true
  | _, .posInfinity => true
  | _, _ => false

variable {limit : JsNumber} {m n : Nat}

theorem lt_ofNat_of_le (h : limit.le (ofNat m)) (hLt : m < n) : limit.lt (ofNat n) := by
  cases limit with
  | nan => cases h
  | negInfinity => rfl
  | finite value =>
    have hValue : value ≤ m := of_decide_eq_true h
    exact decide_eq_true (hValue.trans_lt (Nat.cast_lt.mpr hLt))
  | posInfinity => cases h

theorem le_ofNat_eq_false (h : (ofNat n).lt limit) : limit.le (ofNat n) = false := by
  cases limit with
  | nan => rfl
  | negInfinity => cases h
  | finite value =>
    have hValue : (n : ℚ) < value := of_decide_eq_true h
    exact decide_eq_false hValue.not_ge
  | posInfinity => rfl

end JsNumber

/-- A string or `null`, where the empty string counts as missing. -/
def truthy (text : Option String) : Option String := text.filter (· ≠ "")

/-- The class `\s`, which is also what `trim` removes. -/
def isSpace (c : Char) : Bool :=
  [9, 10, 11, 12, 13, 32, 0xa0, 0x1680, 0x2028, 0x2029, 0x202f, 0x205f, 0x3000, 0xfeff].contains
    c.toNat || (0x2000 ≤ c.toNat && c.toNat ≤ 0x200a)

def trim (text : String) : String :=
  String.ofList (((text.toList.dropWhile isSpace).reverse.dropWhile isSpace).reverse)

def isQuote (c : Char) : Bool := c.toNat == 39 || c.toNat == 34

/-- Where `shellSplit` is. The characters of a token are kept in reverse. -/
inductive SplitMode where
  | between
  | word (token : List Char)
  | quoted (quote : Char) (token : List Char)

/-- The matches of `shellSplit`'s pattern in turn. A quote left open starts a word. -/
def splitFrom : SplitMode → List Char → List String
  | .between, [] | .quoted _ _, [] => []
  | .word token, [] => [String.ofList token.reverse]
  | .between, c :: rest =>
    if isQuote c && rest.contains c then splitFrom (.quoted c []) rest
    else if isSpace c then splitFrom .between rest
    else splitFrom (.word [c]) rest
  | .word token, c :: rest =>
    if isSpace c then String.ofList token.reverse :: splitFrom .between rest
    else splitFrom (.word (c :: token)) rest
  | .quoted quote token, c :: rest =>
    if c == quote then String.ofList token.reverse :: splitFrom .between rest
    else splitFrom (.quoted quote (c :: token)) rest

def shellSplit (command : String) : List String := splitFrom .between command.toList

def isWordChar (c : Char) : Bool := c.isAlphanum || c == '_'

/-- `\b` between two characters of a text, if they are there. -/
def isBoundary (before after : Option Char) : Bool :=
  before.any isWordChar != after.any isWordChar

/-- Whether a hint occurs as a whole word, after the character `before`. -/
def hasWord (hint : List Char) : Option Char → List Char → Bool
  | _, [] => false
  | before, c :: rest =>
    (hint.isPrefixOf (c :: rest) && isBoundary before (some c) &&
      isBoundary hint.getLast? ((c :: rest).drop hint.length).head?) ||
    hasWord hint (some c) rest

def hintIn (text : String) (hints : List String) : Option String :=
  hints.find? fun hint => hasWord hint.toList none text.toList

def digitsValue (digits : List Char) : Nat :=
  digits.foldl (fun value digit => 10 * value + (digit.toNat - '0'.toNat)) 0

def prNumberFromUrl (url : String) : Option Number :=
  let tail := ((url.toList.reverse.dropWhile (· == '/')).takeWhile (· != '/')).reverse
  if tail.isEmpty || !tail.all Char.isDigit then none else some (.posInt (digitsValue tail))

end MxAgent.Adw
