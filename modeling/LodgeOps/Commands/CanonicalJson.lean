import Mathlib.Data.List.Sort
import Mathlib.Data.String.Basic
import Mathlib.Tactic

namespace CanonicalJson

section Values

inductive Key
  | int (n : ℤ)
  | str (s : String)
deriving DecidableEq

def Key.text : Key → String
  | int n => toString n
  | str s => s

-- What a payload is built of: an array keeps its keys in order, an enum its backing value, a date
-- its ATOM text.
inductive Value
  | null
  | bool (b : Bool)
  | int (n : ℤ)
  | str (s : String)
  | backedEnum (value : Key)
  | date (atom : String)
  | array (entries : List (Key × Value))

def listed : ℕ → List (Key × Value) → Bool
  | _, [] => true
  | n, (k, _) :: es => (match k with | .int m => m == n | .str _ => false) && listed (n + 1) es

def isList (es : List (Key × Value)) : Bool := listed 0 es

def keyOrder (a b : Key × Value) : Prop := a.1.text ≤ b.1.text

instance : DecidableRel keyOrder := fun a b => inferInstanceAs (Decidable (a.1.text ≤ b.1.text))

def ksort (es : List (Key × Value)) : List (Key × Value) :=
  if isList es then es else es.insertionSort keyOrder

mutual

def normalize : Value → Value
  | .backedEnum (.int n) => .int n
  | .backedEnum (.str s) => .str s
  | .date atom => .str atom
  | .array es => .array (ksort (normalizeAll es))
  | .null => .null
  | .bool b => .bool b
  | .int n => .int n
  | .str s => .str s

def normalizeAll : List (Key × Value) → List (Key × Value)
  | [] => []
  | (k, v) :: es => (k, normalize v) :: normalizeAll es

end

end Values

section Text

def hex (n : ℕ) : Char := "0123456789abcdef".toList.getD n '0'

def unicode (n : ℕ) : String :=
  String.ofList ['\\', 'u', hex (n / 4096 % 16), hex (n / 256 % 16), hex (n / 16 % 16), hex (n % 16)]

def escaped (c : Char) : String :=
  if c = '"' then "\\\""
  else if c = '\\' then "\\\\"
  else if c.toNat = 8 then "\\b"
  else if c.toNat = 12 then "\\f"
  else if c = '\n' then "\\n"
  else if c = '\r' then "\\r"
  else if c = '\t' then "\\t"
  else if c.toNat < 32 ∨ c.toNat = 0x2028 ∨ c.toNat = 0x2029 then unicode c.toNat
  else c.toString

def quoted (s : String) : String := "\"" ++ String.join (s.toList.map escaped) ++ "\""

mutual

def jsonEncode : Value → String
  | .null => "null"
  | .bool b => toString b
  | .int n => toString n
  | .str s => quoted s
  | .backedEnum (.int n) => toString n
  | .backedEnum (.str s) => quoted s
  | .date atom => quoted atom
  | .array es =>
    if isList es then "[" ++ ",".intercalate (elements es) ++ "]"
    else String.ofList ['\x7b'] ++ ",".intercalate (members es) ++ String.ofList ['\x7d']

def elements : List (Key × Value) → List String
  | [] => []
  | (_, v) :: es => jsonEncode v :: elements es

def members : List (Key × Value) → List String
  | [] => []
  | (k, v) :: es => (quoted k.text ++ ":" ++ jsonEncode v) :: members es

end

def encode (v : Value) : String := jsonEncode (normalize v)

-- The hash of the text stands for the text: it is taken to be injective.
def checksum (v : Value) : String := encode v

end Text

section Order
variable {es es' : List (Key × Value)}

theorem normalizeAll_eq_map (es : List (Key × Value)) :
    normalizeAll es = es.map fun e => (e.1, normalize e.2) := by
  induction es with
  | nil => simp [normalizeAll]
  | cons e es ih => simp [normalizeAll, ih]

theorem listed_congr (f : Value → Value) (es : List (Key × Value)) :
    ∀ n, listed n (es.map fun e => (e.1, f e.2)) = listed n es := by
  induction es with
  | nil => exact fun n => rfl
  | cons e es ih => exact fun n => by simp only [List.map_cons, listed, ih]

theorem insertionSort_perm_eq (hp : es.Perm es') (hn : (es.map fun e => e.1.text).Nodup) :
    es.insertionSort keyOrder = es'.insertionSort keyOrder := by
  have hperm : (es.insertionSort keyOrder).Perm (es'.insertionSort keyOrder) :=
    (List.perm_insertionSort _ es).trans (hp.trans (List.perm_insertionSort _ es').symm)
  have : Std.Total keyOrder := ⟨fun a b => le_total a.1.text b.1.text⟩
  have : IsTrans (Key × Value) keyOrder := ⟨fun _ _ _ hab hbc => le_trans (α := String) hab hbc⟩
  refine hperm.eq_of_pairwise ?_ (List.pairwise_insertionSort _ _) (List.pairwise_insertionSort _ _)
  intro a b ha hb hab hba
  have hmem : a ∈ es := (List.mem_insertionSort _).mp ha
  have hmem' : b ∈ es := hp.mem_iff.mpr ((List.mem_insertionSort _).mp hb)
  exact List.inj_on_of_nodup_map hn hmem hmem' (le_antisymm hab hba)

-- A client may send the fields of an object in any order.
theorem encode_reordered (hp : es.Perm es') (hn : (es.map fun e => e.1.text).Nodup)
    (hl : isList es = false) (hl' : isList es' = false) :
    encode (.array es) = encode (.array es') := by
  have hmap := hp.map fun e : Key × Value => (e.1, normalize e.2)
  have hkeys : ((es.map fun e => (e.1, normalize e.2)).map fun e => e.1.text).Nodup := by
    simpa [Function.comp_def] using hn
  have hsort := insertionSort_perm_eq hmap hkeys
  have hfalse : ∀ xs : List (Key × Value), isList xs = false →
      isList (xs.map fun e => (e.1, normalize e.2)) = false :=
    fun xs h => (listed_congr normalize xs 0).trans h
  simp only [encode, normalize, normalizeAll_eq_map, ksort, hfalse es hl, hfalse es' hl',
    Bool.false_eq_true, if_false, hsort]

example : encode (.array [(.str "b", .int 2), (.str "a", .backedEnum (.str "cash"))]) =
    encode (.array [(.str "a", .str "cash"), (.str "b", .int 2)]) := by decide

end Order
end CanonicalJson
