import LodgeOps.Store.Patterns
import LodgeOps.Schema.Database

namespace SensitivePaymentDataGuard
open Schema Transaction Patterns

section Patterns

def digit (x : Char) : Bool := '0' ≤ x && x ≤ '9'

def lowered (x : Char) : Char := if 'A' ≤ x && x ≤ 'Z' then Char.ofNat (x.toNat + 32) else x

def sameLetter (x y : Char) : Bool := lowered x == lowered y

def hex (x : Char) : Bool := digit x || 'a' ≤ lowered x && lowered x ≤ 'f'

def space (x : Char) : Bool := x == ' ' || '\t' ≤ x && x ≤ '\r'

def oneOf (xs : List Char) (x : Char) : Bool := xs.contains x

def text (s : String) : Pattern := sequence (s.toList.map fun x => .set (· == x))

def anyCase (s : String) : Pattern := sequence (s.toList.map fun x => .set (sameLetter x))

def exactly (n : ℕ) (p : Char → Bool) : Pattern := .repeated (.set p) n 0

def digits (least more : ℕ) : Pattern := .repeated (.set digit) least more

def lastField (name : Pattern) : Pattern :=
  sequence [.alt .start (text "."), name, .lineEnd]

def uuid : Pattern :=
  sequence [exactly 8 hex, text "-", exactly 4 hex, text "-", .set fun x => '1' ≤ x && x ≤ '8',
    exactly 3 hex, text "-", .set fun x => oneOf ['8', '9', 'a', 'b'] (lowered x), exactly 3 hex,
    text "-", exactly 12 hex]

def uuidPattern : Pattern := sequence [.notBehind hex, uuid, .notAhead hex]

def hashPattern : Pattern := sequence [.start, exactly 64 hex, .finish]

def mark : Pattern :=
  sequence [.many space, perhaps (.set (oneOf [':', '=', '#', '-'])), .many space]

def codePattern : Pattern :=
  sequence [choice [sequence [anyCase "cvv", perhaps (text "2")],
      sequence [anyCase "cvc", perhaps (text "2")], anyCase "cid",
      sequence [anyCase "card", .many space, anyCase "verification"],
      sequence [anyCase "security", .many space, anyCase "code"], anyCase "pin"],
    mark, digits 3 9]

def month : Pattern :=
  .alt (.seq (text "0") (.set fun x => '1' ≤ x && x ≤ '9'))
    (.seq (text "1") (.set (oneOf ['0', '1', '2'])))

def year : Pattern := .alt (digits 2 0) (digits 4 0)

def expiryPattern : Pattern :=
  sequence [choice [sequence [anyCase "exp", perhaps (.alt (anyCase "iry") (anyCase "iration"))],
      sequence [anyCase "valid", .many space, .alt (anyCase "thru") (anyCase "through")]],
    mark, month, .set (oneOf ['/', '-']), year]

def datePattern : Pattern :=
  sequence [.notBehind digit, month, text "/", year, .notAhead digit]

def trackPattern : Pattern :=
  sequence [perhaps (sequence [anyCase "track", .many space, .set (oneOf ['1', '2']), mark]),
    .alt (anyCase "%B") (text ";"), digits 12 7, .set fun x => oneOf ['^', '=', 'd'] (lowered x)]

def hashFields : Pattern := lastField (.alt (anyCase "document_email_key") (anyCase "command_key"))

def named (x : Char) : Bool := 'a' ≤ lowered x && lowered x ≤ 'z' || x == '_'

def skippedFields : Pattern :=
  lastField (choice [anyCase "id", sequence [.set named, .many named, anyCase "_id"],
    anyCase "phone", anyCase "sha256",
    sequence [.many named, .alt (anyCase "checksum") (anyCase "hash")]])

def keyFields : Pattern :=
  lastField (.seq (.alt (anyCase "deduplication") (anyCase "idempotency")) (anyCase "_key"))

def storageFields : Pattern :=
  lastField (.seq (anyCase "storage_") (.alt (anyCase "path") (anyCase "key")))

def extension : Pattern :=
  .seq (text ".") (choice [anyCase "pdf", anyCase "png",
    sequence [anyCase "jp", perhaps (anyCase "e"), anyCase "g"]])

def evidenceLocator : Pattern :=
  sequence [.start, anyCase "guest-payment-evidence/", uuid, text "/", uuid, text "/", uuid,
    extension, .finish]

def refundLocator : Pattern :=
  sequence [.start, anyCase "payment-evidence/", uuid, anyCase "/refunds/", uuid, text "/",
    exactly 64 hex, extension, .finish]

def separator (x : Char) : Bool := x == ' ' || x == '-'

def cardDigit : Pattern := .seq (.set digit) (perhaps (.set separator))

def cardPattern : Pattern :=
  sequence [.notBehind digit, .repeated cardDigit 13 6, .notAhead digit]

end Patterns

section Luhn

def digitValue (x : Char) : ℕ := x.toNat - 48

-- The digit at an index, doubled where the parity of the length says so.
def weighed (parity index : ℕ) (x : Char) : ℕ :=
  if index % 2 = parity then
    if 9 < digitValue x * 2 then digitValue x * 2 - 9 else digitValue x * 2
  else digitValue x

def luhnSum (parity index : ℕ) : List Char → ℕ
  | [] => 0
  | x :: xs => weighed parity index x + luhnSum parity (index + 1) xs

def repeatedDigit : List Char → Bool
  | x :: y :: xs => y == x && xs.all (· == x)
  | _ => false

def luhn (ds : List Char) : Bool :=
  !(decide (ds.length < 13) || decide (19 < ds.length) || repeatedDigit ds) &&
    luhnSum (ds.length % 2) 0 ds % 10 == 0

end Luhn

section Values

-- Decoded request data: a string, a keyed array, or any other value.
inductive Value
  | str (s : String)
  | array (items : List (String × Value))
  | scalar

def joined (path key : String) : String := if path = "" then key else path ++ "." ++ key

mutual

def Value.leaves (path : String) : Value → List (String × String)
  | .str s => [(path, s)]
  | .array items => leavesOf path items
  | .scalar => []

def leavesOf (path : String) : List (String × Value) → List (String × String)
  | [] => []
  | (key, v) :: items => v.leaves (joined path key) ++ leavesOf path items

end

-- What a JSON text that holds an array or an object decodes to; its strings are shorter than it.
structure JsonDecoder where
  decode : String → Option (List (String × Value))
  shorter : ∀ s items, decode s = some items →
    ∀ leaf ∈ leavesOf "" items, leaf.2.length < s.length

def opensJson (s : String) : Bool := s.toList.head?.any (oneOf ['\x7b', '['])

def JsonDecoder.items? (json : JsonDecoder) (s : String) : Option (List (String × Value)) :=
  if opensJson s then json.decode s else none

def expanded (json : JsonDecoder) : ℕ → String × String → List (String × String)
  | 0, leaf => [leaf]
  | n + 1, leaf =>
    match json.items? leaf.2 with
    | some items => (leavesOf leaf.1 items).flatMap (expanded json n)
    | none => [leaf]

def strings (json : JsonDecoder) (value : Value) (path : String) : List (String × String) :=
  (value.leaves path).flatMap fun leaf => expanded json leaf.2.length leaf

mutual

theorem Value.texts (v : Value) (p q : String) :
    (v.leaves p).map Prod.snd = (v.leaves q).map Prod.snd := by
  cases v with
  | str s => rfl
  | array items => exact texts_leavesOf items p q
  | scalar => rfl

theorem texts_leavesOf (items : List (String × Value)) (p q : String) :
    (leavesOf p items).map Prod.snd = (leavesOf q items).map Prod.snd := by
  cases items with
  | nil => rfl
  | cons item items =>
    simp only [leavesOf, List.map_append]
    rw [item.2.texts (joined p item.1) (joined q item.1), texts_leavesOf items p q]

end

section Expansion
variable {json : JsonDecoder} {leaf : String × String} {items : List (String × Value)}

theorem items_shorter {path s : String} (h : json.items? s = some items) :
    ∀ l ∈ leavesOf path items, l.2.length < s.length := by
  intro l hl
  unfold JsonDecoder.items? at h
  split_ifs at h
  have hmem : l.2 ∈ (leavesOf path items).map Prod.snd := List.mem_map_of_mem hl
  rw [texts_leavesOf items path ""] at hmem
  obtain ⟨l', hl', he⟩ := List.mem_map.mp hmem
  exact he ▸ json.shorter _ _ h l' hl'

theorem items_of_empty {s : String} (h : s.length = 0) : json.items? s = none := by
  have he : s = "" := String.length_eq_zero_iff.mp h
  rw [he]
  rfl

-- Every level of decoding shortens the text, so its length bounds the levels.
theorem expanded_enough {m n : ℕ} (hm : leaf.2.length ≤ m) (hn : leaf.2.length ≤ n) :
    expanded json m leaf = expanded json n leaf := by
  induction m generalizing n leaf with
  | zero =>
    cases n with
    | zero => rfl
    | succ n => rw [expanded, expanded, items_of_empty (Nat.le_zero.mp hm)]
  | succ m ih =>
    cases n with
    | zero => rw [expanded, expanded, items_of_empty (Nat.le_zero.mp hn)]
    | succ n =>
      rw [expanded, expanded]
      cases hi : json.items? leaf.2 with
      | none => rfl
      | some items =>
        refine List.flatMap_congr fun l hl => ?_
        have hlt := items_shorter hi l hl
        exact ih (by omega) (by omega)

theorem strings_decoded {s path : String} (h : json.items? s = some items) :
    strings json (.str s) path = strings json (.array items) path := by
  have hshort : ∀ l ∈ leavesOf path items, l.2.length < s.length := items_shorter h
  cases hn : s.length with
  | zero => exact absurd ((items_of_empty hn).symm.trans h) (by simp)
  | succ n =>
    simp only [strings, Value.leaves, List.flatMap_cons, List.flatMap_nil, List.append_nil, hn,
      expanded, h]
    refine List.flatMap_congr fun l hl => ?_
    have hlt := hshort l hl
    exact expanded_enough (by omega) le_rfl

end Expansion

end Values

section Guard

def resolvableReferenceFields : List String :=
  ["transaction_reference", "authorization_reference", "batch_reference"]

def validateResolutionFields (fields : List String) : Except Failure (List String) := do
  refuse (fields.eraseDups.any (fun f => !resolvableReferenceFields.contains f) = true)
    (.validation "luhn_false_positive_fields"
      "Only transaction, authorization, and batch references may resolve a documented Luhn false positive.")
  pure fields.eraseDups

def isResolvedReferencePath (path : String) (resolvedFields : List String) : Bool :=
  resolvedFields.any fun field => path == field || path == "PaymentTenderDetail." ++ field

def isGeneratedStorageLocator (path value : String) : Bool :=
  occurs storageFields path.toList &&
    (occurs evidenceLocator value.toList || occurs refundLocator value.toList)

def isGeneratedHash (path value : String) : Bool :=
  occurs hashFields path.toList && occurs hashPattern value.toList

def containsSensitiveAuthenticationData (value : List Char) : Bool :=
  occurs codePattern value || occurs expiryPattern value || occurs datePattern value ||
    occurs trackPattern value

def isExempt (path value : String) : Bool :=
  isGeneratedHash path value || occurs skippedFields path.toList ||
    (occurs keyFields path.toList && occurs hashPattern value.toList)

def withoutUuids (value : String) : List Char := removeAll uuidPattern value.toList

def candidates (value : String) : List (List Char) :=
  (findAll cardPattern (withoutUuids value)).map (List.filter digit)

def resembles (path : String) : Failure := .validation path
  ("The " ++ path ++ " value resembles a full payment-card number. Store only receipt-safe references and, where supported, the last four digits.")

def assertLeaf (resolvedFields : List String) (path value : String) : Except Failure Unit :=
  if isGeneratedStorageLocator path value then pure ()
  else do
    refuse (containsSensitiveAuthenticationData (withoutUuids value) = true) (.validation path
      "Do not store card verification codes, PINs, expiry data, or magnetic-stripe/chip track data in Inn.")
    refuse ((!isExempt path value && (candidates value).any luhn &&
      !isResolvedReferencePath path resolvedFields) = true) (resembles path)

def assertSafe (json : JsonDecoder) (scopedFields : List String) (value : Value) (field : String)
    (luhnFalsePositiveFields : List String) : Except Failure Unit := do
  let fields ← validateResolutionFields luhnFalsePositiveFields
  (strings json value field).forM fun leaf =>
    assertLeaf (scopedFields ++ fields).eraseDups leaf.1 leaf.2

end Guard
end SensitivePaymentDataGuard
