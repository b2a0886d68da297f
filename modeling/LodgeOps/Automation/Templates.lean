import LodgeOps.Schema.Automation

open CanonicalJson (Value Key)

namespace AutomationContext

def entries : Value → List (Key × Value)
  | .array es => es
  | _ => []

def valueAt? (v : Value) (k : String) : Option Value :=
  ((entries v).find? fun e => e.1.text == k).map Prod.snd

-- `$array[$key] ?? null`
def field (v : Value) (k : String) : Value := (valueAt? v k).getD .null

def segments : List Char → List (List Char)
  | [] => [[]]
  | '.' :: cs => [] :: segments cs
  | c :: cs =>
    match segments cs with
    | [] => [[c]]
    | s :: ss => (c :: s) :: ss

def dataGet (v : Value) (path : String) : Value :=
  (segments path.toList).foldl (fun v k => field v (String.ofList k)) v

def text? : Value → Option String
  | .str s => some s
  | _ => none

def named? (v : Value) : Option String := (text? v).filter (· != "")

-- `$a ?? $b`
def orElse (v w : Value) : Value :=
  match v with
  | .null => w
  | v => v

-- The text that a scalar is cast to; null and arrays have none.
def scalar? : Value → Option String
  | .str s => some s
  | .int n => some (toString n)
  | .bool true => some "1"
  | .bool false => some ""
  | _ => none

def digits (cs : List Char) : ℤ :=
  (cs.takeWhile Char.isDigit).foldl (fun n c => 10 * n + (c.toNat - '0'.toNat : ℤ)) 0

def intOf : Value → ℤ
  | .int n => n
  | .bool true => 1
  | .str s =>
    match s.toList.dropWhile Char.isWhitespace with
    | '-' :: cs => -digits cs
    | '+' :: cs => digits cs
    | cs => digits cs
  | _ => 0

-- `===` on decoded values: the same entries in the same order.
mutual

def identical : Value → Value → Bool
  | .null, .null => true
  | .bool a, .bool b => a == b
  | .int m, .int n => m == n
  | .str s, .str t => s == t
  | .array es, .array fs => identicalAll es fs
  | _, _ => false

def identicalAll : List (Key × Value) → List (Key × Value) → Bool
  | [], [] => true
  | (k, v) :: es, (l, w) :: fs => k == l && identical v w && identicalAll es fs
  | _, _ => false

end

end AutomationContext

namespace AutomationConditionMatcher
open AutomationContext

def isMatch (conditions context : Value) : Bool :=
  (entries conditions).all fun e => identical (dataGet context e.1.text) e.2

end AutomationConditionMatcher

namespace AutomationTemplateRenderer
open AutomationContext

def blank (c : Char) : Bool := c.isWhitespace || c.toNat == 11 || c.toNat == 12

def pathChar (c : Char) : Bool := c.isAlphanum || c == '_' || c == '.'

-- What follows two opening braces: the path, and the text behind the closing ones.
def placeholder? (cs : List Char) : Option (List Char × List Char) :=
  let cs := cs.dropWhile blank
  let path := cs.takeWhile pathChar
  match (cs.dropWhile pathChar).dropWhile blank with
  | '\x7d' :: '\x7d' :: rest => if path.isEmpty then none else some (path, rest)
  | _ => none

-- The fuel is the length of the text.
def scan (context : Value) : ℕ → List Char → List Char
  | 0, cs => cs
  | _, [] => []
  | n + 1, c :: cs =>
    match c, cs with
    | '\x7b', '\x7b' :: body =>
      match placeholder? body with
      | some (path, rest) =>
        ((scalar? (dataGet context (String.ofList path))).getD "").toList ++ scan context n rest
      | none => c :: scan context n cs
    | _, _ => c :: scan context n cs

def render (template : String) (context : Value) : String :=
  String.ofList (scan context template.length template.toList)

end AutomationTemplateRenderer
