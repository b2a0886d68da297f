import LodgeOps.Commands.CanonicalJson
import LodgeOps.Store.PrefixCodes
import Mathlib.Data.String.Basic

namespace CanonicalJson
open PrefixCodes

section Letters

def hexValue (c : Char) : ℕ := if c.toNat < 58 then c.toNat - 48 else c.toNat - 87

theorem hexValue_hex (n : ℕ) : hexValue (hex (n % 16)) = n % 16 := by
  have h : n % 16 < 16 := Nat.mod_lt _ (by norm_num)
  generalize n % 16 = m at h ⊢
  interval_cases m <;> rfl

def named : Char → Char
  | 'b' => Char.ofNat 8
  | 'f' => Char.ofNat 12
  | 'n' => '\n'
  | 'r' => '\r'
  | 't' => '\t'
  | c => c

-- The letter a quoted text starts with.
def readLetter : List Char → Option (Char × List Char)
  | '\\' :: 'u' :: a :: b :: c :: d :: s =>
    some (Char.ofNat (hexValue a * 4096 + hexValue b * 256 + hexValue c * 16 + hexValue d), s)
  | '\\' :: c :: s => some (named c, s)
  | c :: s => some (c, s)
  | [] => none

theorem eq_ofNat {c : Char} {n : ℕ} (h : c.toNat = n) : c = Char.ofNat n := by
  rw [← h, Char.ofNat_toNat]

theorem readLetter_escaped (c : Char) (s : List Char) :
    readLetter ((escaped c).toList ++ s) = some (c, s) := by
  unfold escaped
  split_ifs with hquote hslash hback hfeed hline hreturn htab hcontrol
  · simp [readLetter, hquote, named]
  · simp [readLetter, hslash, named]
  · simp [readLetter, eq_ofNat hback, named]
  · simp [readLetter, eq_ofNat hfeed, named]
  · simp [readLetter, hline, named]
  · simp [readLetter, hreturn, named]
  · simp [readLetter, htab, named]
  · have hlt : c.toNat < 65536 := by omega
    have hcode : c.toNat / 4096 % 16 * 4096 + c.toNat / 256 % 16 * 256 + c.toNat / 16 % 16 * 16 +
        c.toNat % 16 = c.toNat := by omega
    simp only [unicode, String.toList_ofList, List.cons_append, List.nil_append, readLetter,
      hexValue_hex, hcode, Char.ofNat_toNat]
  · simp [readLetter, hslash]

theorem escaped_reads (a b : Char) (s t : List Char)
    (h : (escaped a).toList ++ s = (escaped b).toList ++ t) : a = b ∧ s = t := by
  have hread := readLetter_escaped a s
  rw [h, readLetter_escaped] at hread
  obtain ⟨hab, hst⟩ := Prod.mk.inj (Option.some.inj hread)
  exact ⟨hab.symm, hst.symm⟩

theorem escaped_ne_quote (a : Char) (s t : List Char) : (escaped a).toList ++ s ≠ '"' :: t := by
  unfold escaped
  split_ifs with hquote <;> simp_all [unicode]

def quotation (s : String) : List Char := '"' :: (s.toList.flatMap (fun c => (escaped c).toList) ++ ['"'])

theorem toList_quoted (s : String) : (quoted s).toList = quotation s := by
  simp [quoted, quotation, List.flatMap, Function.comp_def]

theorem quotation_reads {a b : String} {s t : List Char}
    (h : quotation a ++ s = quotation b ++ t) : a = b ∧ s = t := by
  simp only [quotation, List.cons_append, List.append_assoc, List.nil_append, List.cons.injEq,
    true_and] at h
  obtain ⟨hab, hst⟩ := flatMap_reads escaped_reads escaped_ne_quote h
  exact ⟨String.toList_inj.mp hab, hst⟩

end Letters

section Plain

-- A text that spells a machine integer is never a key: the array holds the integer.
def Key.WellFormed : Key → Prop
  | .int n => -2 ^ 63 ≤ n ∧ n < 2 ^ 63
  | .str s => ∀ n : ℤ, -2 ^ 63 ≤ n → n < 2 ^ 63 → s ≠ toString n

theorem repr_inj {m n : ℕ} (h : m.repr.toList = n.repr.toList) : m = n := by
  rw [Nat.toList_repr, Nat.toList_repr] at h
  rw [← Nat.ofDigitChars_ten_toDigits (n := m), h, Nat.ofDigitChars_ten_toDigits]

theorem isDigit_of_mem_repr {n : ℕ} {c : Char} (h : c ∈ n.repr.toList) : c.isDigit = true := by
  rw [Nat.toList_repr] at h
  exact Nat.isDigit_of_mem_toDigits (by norm_num) (by norm_num) h

theorem toList_ofNat (n : ℕ) : (toString (Int.ofNat n)).toList = n.repr.toList := rfl

theorem toList_negSucc (n : ℕ) : (toString (Int.negSucc n)).toList = '-' :: (n + 1).repr.toList := by
  have h : toString (Int.negSucc n) = "-" ++ (n + 1).repr := rfl
  rw [h, String.toList_append]
  rfl

theorem repr_ne_minus {n : ℕ} {s : List Char} : n.repr.toList ≠ '-' :: s := fun h => by
  have hdigit := isDigit_of_mem_repr (n := n) (c := '-') (by simp [h])
  exact absurd hdigit (by decide)

theorem toString_int_inj {m n : ℤ} (h : toString m = toString n) : m = n := by
  have h := congrArg String.toList h
  cases m with
  | ofNat m =>
    cases n with
    | ofNat n =>
      have hmn : m = n := repr_inj h
      rw [hmn]
    | negSucc n =>
      rw [toList_ofNat, toList_negSucc] at h
      exact absurd h repr_ne_minus
  | negSucc m =>
    cases n with
    | ofNat n =>
      rw [toList_ofNat, toList_negSucc] at h
      exact absurd h.symm repr_ne_minus
    | negSucc n =>
      rw [toList_negSucc, toList_negSucc] at h
      have hsucc : m + 1 = n + 1 := repr_inj (List.cons.inj h).2
      rw [Nat.succ.inj hsucc]

theorem digits_of_int (n : ℤ) : ∀ c ∈ (toString n).toList, c.isDigit = true ∨ c = '-' := by
  intro c hc
  cases n with
  | ofNat n => exact Or.inl (isDigit_of_mem_repr (toList_ofNat n ▸ hc))
  | negSucc n =>
    rw [toList_negSucc, List.mem_cons] at hc
    rcases hc with rfl | hc
    · exact Or.inr rfl
    · exact Or.inl (isDigit_of_mem_repr hc)

theorem Key.text_inj {k l : Key} (hk : k.WellFormed) (hl : l.WellFormed) (h : k.text = l.text) :
    k = l := by
  cases k with
  | int m =>
    cases l with
    | int n => rw [toString_int_inj h]
    | str t => exact absurd h.symm (hl m hk.1 hk.2)
  | str s =>
    cases l with
    | int n => exact absurd h (hk n hl.1 hl.2)
    | str t => exact congrArg Key.str h

mutual

-- Scalars and nested arrays, each array with one entry to a key.
def Plain : Value → Prop
  | .null | .bool _ | .int _ | .str _ => True
  | .backedEnum _ | .date _ => False
  | .array es => (es.map Prod.fst).Nodup ∧ PlainAll es

def PlainAll : List (Key × Value) → Prop
  | [] => True
  | (k, v) :: es => (k.WellFormed ∧ Plain v) ∧ PlainAll es

end

theorem plainAll_iff {es : List (Key × Value)} :
    PlainAll es ↔ ∀ e ∈ es, e.1.WellFormed ∧ Plain e.2 := by
  induction es with
  | nil => simp [PlainAll]
  | cons e es ih => simp [PlainAll, ih]

mutual

theorem Value.nested {P : Value → Prop} (hscalar : ∀ v, (∀ es, v ≠ .array es) → P v)
    (harray : ∀ es, (∀ e ∈ es, P e.2) → P (.array es)) : ∀ v, P v
  | .array es => harray es (Value.nestedAll hscalar harray es)
  | .null => hscalar _ (by simp)
  | .bool _ => hscalar _ (by simp)
  | .int _ => hscalar _ (by simp)
  | .str _ => hscalar _ (by simp)
  | .backedEnum _ => hscalar _ (by simp)
  | .date _ => hscalar _ (by simp)

theorem Value.nestedAll {P : Value → Prop} (hscalar : ∀ v, (∀ es, v ≠ .array es) → P v)
    (harray : ∀ es, (∀ e ∈ es, P e.2) → P (.array es)) : ∀ es : List (Key × Value), ∀ e ∈ es, P e.2
  | [] => by simp
  | (_, v) :: es =>
    List.forall_mem_cons.mpr ⟨Value.nested hscalar harray v, Value.nestedAll hscalar harray es⟩

end

theorem listed_inj {es fs : List (Key × Value)} {n : ℕ} (hes : listed n es = true)
    (hfs : listed n fs = true) (h : List.Forall₂ (fun e f => e.2 = f.2) es fs) : es = fs := by
  induction h generalizing n with
  | nil => rfl
  | @cons e f es fs hef _ ih =>
    obtain ⟨k, v⟩ := e
    obtain ⟨l, w⟩ := f
    simp only [listed, Bool.and_eq_true] at hes hfs
    obtain rfl : v = w := hef
    cases k with
    | str _ => simp at hes
    | int m =>
      cases l with
      | str _ => simp at hfs
      | int m' =>
        obtain ⟨hm, hes⟩ := hes
        obtain ⟨hm', hfs⟩ := hfs
        rw [eq_of_beq hm, eq_of_beq hm', ih hes hfs]

end Plain

section Reading

inductive Shape
  | null
  | bool
  | number
  | string
  | list
  | object
deriving DecidableEq

def shape : Value → Shape
  | .null => .null
  | .bool _ => .bool
  | .int _ | .backedEnum (.int _) => .number
  | .str _ | .backedEnum (.str _) | .date _ => .string
  | .array es => if isList es then .list else .object

-- The shape that the first letter of a text announces.
def announced (c : Char) : Option Shape :=
  if c.isDigit ∨ c = '-' then some .number
  else match c with
    | 'n' => some .null
    | 't' | 'f' => some .bool
    | '"' => some .string
    | '[' => some .list
    | '\x7b' => some .object
    | _ => none

def text (v : Value) : List Char := (jsonEncode v).toList

def member (e : Key × Value) : List Char := quotation e.1.text ++ ':' :: text e.2

def Mark (c : Char) : Prop := c = ',' ∨ c = ']' ∨ c = '\x7d'

theorem mark_comma : Mark ',' := Or.inl rfl

theorem mark_bracket : Mark ']' := Or.inr (Or.inl rfl)

theorem mark_brace : Mark '\x7d' := Or.inr (Or.inr rfl)

theorem text_list {es : List (Key × Value)} (h : isList es = true) :
    text (.array es) = '[' :: sequence (fun e => text e.2) ',' ']' es := by
  have helements : (elements es).map String.toList = es.map fun e => text e.2 := by
    clear h
    induction es with
    | nil => rfl
    | cons e es ih => simp [elements, ih, text]
  rw [text, jsonEncode, if_pos h, ← intercalate_append, ← helements]
  simp [String.toList_intercalate]

theorem text_object {es : List (Key × Value)} (h : isList es = false) :
    text (.array es) = '\x7b' :: sequence member ',' '\x7d' es := by
  have hmembers : (members es).map String.toList = es.map member := by
    clear h
    induction es with
    | nil => rfl
    | cons e es ih => simp [members, ih, member, text, toList_quoted]
  rw [text, jsonEncode, if_neg (by simp [h]), ← intercalate_append, ← hmembers]
  simp [String.toList_intercalate]

theorem shape_bool (b : Bool) : ∃ c s, text (.bool b) = c :: s ∧ announced c = some .bool := by
  cases b
  · exact ⟨'f', _, rfl, rfl⟩
  · exact ⟨'t', _, rfl, rfl⟩

theorem toList_int_ne_nil (n : ℤ) : (toString n).toList ≠ [] := by
  cases n with
  | ofNat n =>
    rw [toList_ofNat, Nat.toList_repr]
    exact Nat.toDigits_ne_nil
  | negSucc n =>
    rw [toList_negSucc]
    exact List.cons_ne_nil _ _

theorem announced_int (n : ℤ) : ∃ c s, (toString n).toList = c :: s ∧ announced c = some .number := by
  obtain ⟨c, s, hn⟩ := List.exists_cons_of_ne_nil (toList_int_ne_nil n)
  exact ⟨c, s, hn, if_pos (digits_of_int n c (hn ▸ List.mem_cons_self))⟩

theorem announced_text (v : Value) :
    ∃ c s, text v = c :: s ∧ announced c = some (shape v) := by
  cases v with
  | null => exact ⟨'n', _, rfl, rfl⟩
  | bool b => exact shape_bool b
  | int n => exact announced_int n
  | str s => exact ⟨'"', _, toList_quoted s, rfl⟩
  | date s => exact ⟨'"', _, toList_quoted s, rfl⟩
  | backedEnum k =>
    cases k with
    | int n => exact announced_int n
    | str s => exact ⟨'"', _, toList_quoted s, rfl⟩
  | array es =>
    by_cases h : isList es = true
    · exact ⟨'[', _, text_list h, by simp [shape, h, announced]⟩
    · rw [Bool.not_eq_true] at h
      exact ⟨'\x7b', _, text_object h, by simp [shape, h, announced]⟩

theorem shape_eq {v w : Value} {s t : List Char} (h : text v ++ s = text w ++ t) :
    shape v = shape w := by
  obtain ⟨c, x, hv, hc⟩ := announced_text v
  obtain ⟨d, y, hw, hd⟩ := announced_text w
  rw [hv, hw] at h
  rw [(List.cons.inj h).1, hd] at hc
  exact (Option.some.inj hc).symm

theorem text_ne_mark {v : Value} {m : Char} {s t : List Char} (hm : announced m = none) :
    text v ++ s ≠ m :: t := by
  obtain ⟨c, x, hv, hc⟩ := announced_text v
  intro h
  rw [hv] at h
  rw [(List.cons.inj h).1, hm] at hc
  cases hc

theorem not_digit_of_stops {s : List Char} (h : Stops Mark s) :
    ∀ c ∈ s.head?, ¬ (c.isDigit = true ∨ c = '-') := by
  intro c hc
  rcases h c hc with rfl | rfl | rfl <;> decide

theorem int_reads {m n : ℤ} {s t : List Char} (hs : Stops Mark s) (ht : Stops Mark t)
    (h : (toString m).toList ++ s = (toString n).toList ++ t) : m = n ∧ s = t := by
  obtain ⟨hmn, hst⟩ := append_eq_of_word (digits_of_int m) (digits_of_int n)
    (not_digit_of_stops hs) (not_digit_of_stops ht) h
  exact ⟨toString_int_inj (String.toList_inj.mp hmn), hst⟩

theorem member_reads {e f : Key × Value} (he : e.1.WellFormed) (hf : f.1.WellFormed)
    (h : ReadsAs Mark text Eq e.2 f.2) : ReadsAs Mark member Eq e f := by
  intro s t hs ht heq
  simp only [member, List.append_assoc, List.cons_append] at heq
  obtain ⟨hkey, heq⟩ := quotation_reads heq
  obtain ⟨hvalue, hst⟩ := h s t hs ht (List.cons.inj heq).2
  exact ⟨Prod.ext (Key.text_inj he hf hkey) hvalue, hst⟩

inductive Alike : Value → Value → Prop
  | null : Alike .null .null
  | bool (a b : Bool) : Alike (.bool a) (.bool b)
  | int (m n : ℤ) : Alike (.int m) (.int n)
  | str (a b : String) : Alike (.str a) (.str b)
  | array {es fs : List (Key × Value)} (h : isList es = isList fs) : Alike (.array es) (.array fs)

theorem shape_array {es : List (Key × Value)} :
    shape (.array es) = if isList es then .list else .object := rfl

theorem alike_of_shape {v w : Value} (hv : Plain v) (hw : Plain w) (h : shape v = shape w) :
    Alike v w := by
  cases v with
  | backedEnum k => exact hv.elim
  | date a => exact hv.elim
  | array es =>
    cases w with
    | array fs =>
      refine Alike.array ?_
      cases he : isList es <;> cases hf : isList fs <;> simp_all [shape_array]
    | backedEnum k => exact hw.elim
    | date a => exact hw.elim
    | _ => cases he : isList es <;> simp [shape, he] at h
  | _ =>
    cases w with
    | array fs => cases hf : isList fs <;> simp [shape, hf] at h
    | backedEnum k => exact hw.elim
    | date a => exact hw.elim
    | _ => first | constructor | cases h

theorem bool_reads {a b : Bool} {s t : List Char} (h : text (.bool a) ++ s = text (.bool b) ++ t) :
    a = b ∧ s = t := by
  have htrue : text (.bool true) = ['t', 'r', 'u', 'e'] := rfl
  have hfalse : text (.bool false) = ['f', 'a', 'l', 's', 'e'] := rfl
  cases a <;> cases b <;> simp_all

-- A plain value can be read off its text, whatever comes after it.
theorem text_reads (v : Value) : ∀ w, Plain v → Plain w → ReadsAs Mark text Eq v w := by
  induction v using Value.nested with
  | hscalar v hv =>
    intro w hpv hpw s t hs ht h
    cases alike_of_shape hpv hpw (shape_eq h) with
    | null => exact ⟨rfl, List.append_cancel_left h⟩
    | bool a b =>
      obtain ⟨rfl, hst⟩ := bool_reads h
      exact ⟨rfl, hst⟩
    | int m n =>
      obtain ⟨rfl, hst⟩ := int_reads hs ht h
      exact ⟨rfl, hst⟩
    | str a b =>
      have hquoted : quotation a ++ s = quotation b ++ t := by rwa [← toList_quoted, ← toList_quoted]
      obtain ⟨rfl, hst⟩ := quotation_reads hquoted
      exact ⟨rfl, hst⟩
    | array => exact absurd rfl (hv _)
  | harray es ih =>
    intro w hpv hpw s t hs ht h
    cases alike_of_shape hpv hpw (shape_eq h) with
    | @array _ fs hlist =>
      have hes := plainAll_iff.mp hpv.2
      have hfs := plainAll_iff.mp hpw.2
      have hitems : ∀ e ∈ es, ∀ f ∈ fs, ReadsAs Mark text Eq e.2 f.2 :=
        fun e he f hf => ih e he f.2 (hes e he).2 (hfs f hf).2
      cases hl : isList es with
      | true =>
        have hl' : isList fs = true := hlist ▸ hl
        rw [text_list hl, text_list hl'] at h
        obtain ⟨hall, hst⟩ := sequence_reads (R := fun e f : Key × Value => e.2 = f.2) mark_comma
          mark_bracket (by decide) hitems (fun _ _ _ => text_ne_mark (by decide)) (List.cons.inj h).2
        exact ⟨congrArg Value.array (listed_inj hl hl' hall), hst⟩
      | false =>
        rw [text_object hl, text_object (hlist ▸ hl)] at h
        obtain ⟨hall, hst⟩ := sequence_reads (R := Eq) mark_comma mark_brace (by decide)
          (fun e he f hf => member_reads (hes e he).1 (hfs f hf).1 (hitems e he f hf))
          (fun _ _ _ heq => absurd (List.cons.inj heq).1 (by decide)) (List.cons.inj h).2
        exact ⟨congrArg Value.array (List.forall₂_eq_eq_eq ▸ hall), hst⟩

theorem jsonEncode_inj {v w : Value} (hv : Plain v) (hw : Plain w)
    (h : jsonEncode v = jsonEncode w) : v = w := by
  have htext : text v ++ [] = text w ++ [] := by simp [text, h]
  exact (text_reads v w hv hw [] [] (by simp [Stops]) (by simp [Stops]) htext).1

end Reading
end CanonicalJson
