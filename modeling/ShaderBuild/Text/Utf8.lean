import ShaderBuild.Text.Blank
/-!
Code points and UTF-8: the order of texts, lengths in bytes, encoding, and one decoding machine that
serves strict and lossy reading.
-/
namespace ShaderBuild.Text

/-- Texts sort by the code points of their characters, the shorter of two that begin alike first. -/
def order : Text → Text → Ordering :=
  List.compareLex compare

/-- The number of bytes of the text in UTF-8. -/
def byteLength : Text → Nat
  | [] => 0
  | c :: rest => c.utf8Size + byteLength rest

theorem byteLength_append (first second : Text) :
    byteLength (first ++ second) = byteLength first + byteLength second := by
  induction first with
  | nil => simp [byteLength]
  | cons c first ih => simp only [List.cons_append, byteLength, ih, Nat.add_assoc]

/-- The bytes of the text in UTF-8. -/
def encode (text : Text) : List UInt8 :=
  text.flatMap String.utf8EncodeChar

/-- Where the decoder stands between two bytes. -/
inductive Decoder where
  /-- Between characters. -/
  | idle
  /-- Inside a character: `owed` bytes are missing, the next one lies in `low` to `high`. -/
  | inside (owed low high : Nat) (value : Nat)

/-- The decoder after the first byte of a character, or nothing when no character starts so. -/
def Decoder.start? (byte : Nat) : Option (Sum Char Decoder) :=
  if byte < 0x80 then some (.inl (Char.ofNat byte))
  else if byte < 0xC2 then none
  else if byte < 0xE0 then some (.inr (.inside 1 0x80 0xBF (byte - 0xC0)))
  else if byte = 0xE0 then some (.inr (.inside 2 0xA0 0xBF 0))
  else if byte = 0xED then some (.inr (.inside 2 0x80 0x9F 0xD))
  else if byte < 0xF0 then some (.inr (.inside 2 0x80 0xBF (byte - 0xE0)))
  else if byte = 0xF0 then some (.inr (.inside 3 0x90 0xBF 0))
  else if byte < 0xF4 then some (.inr (.inside 3 0x80 0xBF (byte - 0xF0)))
  else if byte = 0xF4 then some (.inr (.inside 3 0x80 0x8F 4))
  else none

/-- One byte read between characters. A lost sequence is reported as `none`. -/
def Decoder.begin (byte : Nat) : List (Option Char) × Decoder :=
  match start? byte with
  | some (.inl c) => ([some c], .idle)
  | some (.inr next) => ([], next)
  | none => ([none], .idle)

/-- One byte: what it completes, and the decoder after it. A byte that cannot continue a character
loses the bytes before it and is read afresh. -/
def Decoder.step (decoder : Decoder) (byte : Nat) : List (Option Char) × Decoder :=
  match decoder with
  | .idle => begin byte
  | .inside owed low high value =>
    if low ≤ byte && byte ≤ high then
      let value := value * 64 + (byte - 0x80)
      if owed ≤ 1 then ([some (Char.ofNat value)], .idle)
      else ([], .inside (owed - 1) 0x80 0xBF value)
    else
      let (found, next) := begin byte
      (none :: found, next)

/-- The characters of a byte sequence, with `none` for each maximal sequence that is none. -/
def Decoder.run (decoder : Decoder) : List UInt8 → List (Option Char)
  | [] =>
    match decoder with
    | .idle => []
    | .inside .. => [none]
  | byte :: rest =>
    let (found, next) := decoder.step byte.toNat
    found ++ next.run rest

/-- The text that the bytes encode, if they are UTF-8. -/
def decode? (bytes : List UInt8) : Option Text :=
  (Decoder.idle.run bytes).mapM id

/-- The text of the bytes, each sequence that is no character replaced by U+FFFD. -/
def decodeLossy (bytes : List UInt8) : Text :=
  (Decoder.idle.run bytes).map fun c => c.getD (Char.ofNat 0xFFFD)

end ShaderBuild.Text
