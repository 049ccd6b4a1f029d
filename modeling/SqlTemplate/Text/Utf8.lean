/-!
# Bytes as characters

Documents arrive as bytes and are read as UTF-8.  A sequence of bytes is taken apart from the left
into characters and faults; a fault is a longest run of bytes that begins some character and then
goes wrong, or a single byte that begins none.  The strict reading refuses every fault, the lenient
one puts U+FFFD in its place.
-/

namespace SqlTemplate.Text

set_option autoImplicit false

/-- What stands at the front of a sequence of bytes: a character or a fault, and the number of
bytes after the first that belong to it. -/
structure Front where
  char? : Option Char
  more : Nat

/-- Whether a byte continues a character. -/
def isContinuation (byte : UInt8) : Bool := 0x80 ≤ byte && byte ≤ 0xBF

/-- The six bits that a continuation byte carries. -/
def payload (byte : UInt8) : Nat := byte.toNat % 64

/-- The bytes that may follow a leading byte of a character of three or four bytes: those that
would write a shorter character, a surrogate or a number beyond the last character are left out. -/
def secondRange (lead : UInt8) : UInt8 × UInt8 :=
  if lead = 0xE0 then (0xA0, 0xBF)
  else if lead = 0xED then (0x80, 0x9F)
  else if lead = 0xF0 then (0x90, 0xBF)
  else if lead = 0xF4 then (0x80, 0x8F)
  else (0x80, 0xBF)

/-- What stands at the front of a sequence of bytes that begins with `lead`. -/
def unitAt (lead : UInt8) (after : List UInt8) : Front :=
  let second := after.head?.filter fun byte =>
    (secondRange lead).1 ≤ byte && byte ≤ (secondRange lead).2
  let third := after[1]?.filter isContinuation
  let fourth := after[2]?.filter isContinuation
  if lead < 0x80 then ⟨some (Char.ofNat lead.toNat), 0⟩
  else if lead < 0xC2 || 0xF4 < lead then ⟨none, 0⟩
  else if lead < 0xE0 then
    match second with
    | some b => ⟨some (Char.ofNat (lead.toNat % 32 * 64 + payload b)), 1⟩
    | none => ⟨none, 0⟩
  else if lead < 0xF0 then
    match second, third with
    | some b, some c =>
        ⟨some (Char.ofNat ((lead.toNat % 16 * 64 + payload b) * 64 + payload c)), 2⟩
    | some _, none => ⟨none, 1⟩
    | none, _ => ⟨none, 0⟩
  else
    match second, third, fourth with
    | some b, some c, some d =>
        ⟨some (Char.ofNat
          (((lead.toNat % 8 * 64 + payload b) * 64 + payload c) * 64 + payload d)), 3⟩
    | some _, some _, none => ⟨none, 2⟩
    | some _, none, _ => ⟨none, 1⟩
    | none, _, _ => ⟨none, 0⟩

/-- The characters and faults of a sequence of bytes; a fault is `none`. -/
def units : List UInt8 → List (Option Char)
  | [] => []
  | lead :: after =>
      let front := unitAt lead after
      front.char? :: units (after.drop front.more)
termination_by bytes => bytes.length
decreasing_by simp only [List.length_drop, List.length_cons]; omega

/-- The characters of bytes without fault. -/
def decode? (bytes : List UInt8) : Option (List Char) := (units bytes).mapM id

/-- The text of bytes, with U+FFFD in the place of every fault. -/
def decodeLeniently (bytes : List UInt8) : String :=
  .ofList ((units bytes).map fun unit => unit.getD '\uFFFD')

/-- The bytes of a text. -/
def encode (text : String) : List UInt8 := text.toList.flatMap String.utf8EncodeChar

end SqlTemplate.Text
