import SqlTemplate.Text.Utf8

/-!
# Encodings of documents

A document is written in UTF-8, unless it says otherwise: by a mark in front of everything, or by
the name of its encoding in its declaration.  The two have to agree, and what is written in units
of sixteen bits needs the mark.

A document is read up to the first place where no character begins.
-/

namespace SqlTemplate.Catalogue

set_option autoImplicit false

/-! ## Encodings -/

/-- The order of the two bytes of a unit. -/
inductive ByteOrder where
  | bigEndian
  | littleEndian
  deriving Repr, DecidableEq

/-- An encoding. -/
inductive Encoding where
  | utf8
  | latin1
  | ascii
  | utf16 (order : ByteOrder)
  deriving Repr, DecidableEq

/-- An encoding as a declaration names it, the order of bytes left open. -/
inductive Charset where
  | utf8
  | latin1
  | ascii
  | utf16
  deriving Repr, DecidableEq

/-! ## Marks and names -/

/-- The encoding that the mark of a document tells, and the bytes behind the mark. -/
def marked : List UInt8 → Option Encoding × List UInt8
  | 0xEF :: 0xBB :: 0xBF :: bytes => (some .utf8, bytes)
  | 0xFE :: 0xFF :: bytes => (some (.utf16 .bigEndian), bytes)
  | 0xFF :: 0xFE :: bytes => (some (.utf16 .littleEndian), bytes)
  | bytes => (none, bytes)

/-- The names of the encodings; of two that fit, the first counts. -/
def Charset.names : List (String × Charset) :=
  [("utf-8", utf8), ("utf8", utf8), ("iso-8859-1", latin1), ("latin1", latin1),
   ("utf-16", utf16), ("utf16", utf16), ("ascii", ascii), ("us-ascii", ascii)]

/-- Whether a label, which is in small letters, and a name agree as far as both go. -/
def agree (label name : List Char) : Bool :=
  (label.zip name).all fun (c, d) => c == d.toLower

/-- The encoding that a name means, whatever the case of its letters; a name may be cut short, and
may go on behind a label. -/
def Charset.named? (name : String) : Option Charset :=
  (names.find? fun (label, _) => agree label.toList name.toList).map Prod.snd

/-- The encoding of a document that declares one, given what its mark tells. -/
def Charset.encoding? : Charset → Option Encoding → Option Encoding
  | utf8, none => some .utf8
  | utf8, some .utf8 => some .utf8
  | latin1, none => some .latin1
  | ascii, none => some .ascii
  | utf16, some (.utf16 order) => some (.utf16 order)
  | _, _ => none

/-! ## Decoding -/

/-- Characters, and whether they are all that was written. -/
structure Decoded where
  chars : List Char
  isWhole : Bool

/-- What is left without some characters at the front. -/
def Decoded.drop (decoded : Decoded) (count : Nat) : Decoded :=
  { decoded with chars := decoded.chars.drop count }

/-- Characters with one more in front. -/
def Decoded.cons (c : Char) (decoded : Decoded) : Decoded :=
  { decoded with chars := c :: decoded.chars }

/-- The unit that two bytes write. -/
def ByteOrder.unit : ByteOrder → UInt8 → UInt8 → Nat
  | bigEndian, a, b => a.toNat * 256 + b.toNat
  | littleEndian, a, b => b.toNat * 256 + a.toNat

/-- The character that two units write together. -/
def paired? (high low : Nat) : Option Char :=
  if 0xD800 ≤ high ∧ high < 0xDC00 ∧ 0xDC00 ≤ low ∧ low < 0xE000 then
    some (Char.ofNat (0x10000 + (high - 0xD800) * 0x400 + (low - 0xDC00)))
  else none

/-- The characters that units of two bytes write. -/
def ByteOrder.decode (order : ByteOrder) : List UInt8 → Decoded
  | [] => ⟨[], true⟩
  | [_] => ⟨[], false⟩
  | a :: b :: bytes =>
      let unit := order.unit a b
      if unit < 0xD800 ∨ 0xE000 ≤ unit then (order.decode bytes).cons (Char.ofNat unit)
      else
        match bytes with
        | c :: d :: bytes =>
            match paired? unit (order.unit c d) with
            | some character => (order.decode bytes).cons character
            | none => ⟨[], false⟩
        | _ => ⟨[], false⟩

/-- The characters that bytes write. -/
def Encoding.decode (bytes : List UInt8) : Encoding → Decoded
  | utf8 =>
      let units := Text.units bytes
      let chars := (units.takeWhile Option.isSome).filterMap id
      ⟨chars, chars.length == units.length⟩
  | latin1 => ⟨bytes.map fun byte => Char.ofNat byte.toNat, true⟩
  | ascii =>
      let plain := bytes.takeWhile (· < 0x80)
      ⟨plain.map fun byte => Char.ofNat byte.toNat, plain.length == bytes.length⟩
  | utf16 order => order.decode bytes

end SqlTemplate.Catalogue
