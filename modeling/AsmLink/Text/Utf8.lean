import AsmLink.Text.Basic

/-! Texts as bytes in UTF-8. Reading goes byte by byte with at most one character pending; each
longest ill-formed run that could still have begun a character counts as one fault, so that the
strict and the lenient reader differ only in what they do with a fault. Main statements: a text has as
many line feeds as its bytes (`count_newline_encode`), and either reader reads it back from them
(`decode?_encode`, `decodeLossy_encode`). -/

namespace AsmLink

abbrev Bytes := List UInt8

namespace Utf8

def encode (text : Text) : Bytes :=
  text.flatMap String.utf8EncodeChar

/-- A byte that belongs to a character of several bytes is no line feed. -/
private theorem ofNat_ne_newline {n : Nat} (h : 128 ≤ n ∧ n < 256) : 10 ≠ UInt8.ofNat n := by
  intro heq
  have := congrArg UInt8.toNat heq
  simp only [UInt8.toNat_ofNat', UInt8.reduceToNat] at this
  omega

private theorem count_newline_utf8EncodeChar (c : Char) :
    (String.utf8EncodeChar c).count 10 = [c].count '\n' := by
  have hc : c = '\n' ↔ c.toNat = 10 := by
    rw [← Char.toNat_inj]
    rfl
  have hlarge (h : 127 < c.toNat) : [c].count '\n' = 0 := by
    rw [List.count_eq_zero, List.mem_singleton, eq_comm, hc]
    omega
  fun_cases String.utf8EncodeChar c with
  | case1 v hlow =>
      change c.toNat ≤ 127 at hlow
      have hbyte : UInt8.ofNat c.toNat = 10 ↔ c.toNat = 10 := by
        rw [← UInt8.toNat_inj]
        simp only [UInt8.toNat_ofNat', UInt8.reduceToNat]
        omega
      change [UInt8.ofNat c.toNat].count 10 = _
      simp [List.count_cons, hc, hbyte]
  | case2 v hlow | case3 v hlow | case4 v hlow =>
      rw [hlarge (Nat.lt_of_not_le hlow), List.count_eq_zero]
      simp only [List.mem_cons, List.not_mem_nil, or_false, not_or]
      repeat' apply And.intro
      all_goals exact ofNat_ne_newline (by omega)

theorem count_newline_encode (text : Text) : (encode text).count 10 = text.count '\n' := by
  induction text with
  | nil => rfl
  | cons c rest ih =>
      calc (encode (c :: rest)).count 10
          = (String.utf8EncodeChar c).count 10 + (encode rest).count 10 := by
            rw [encode, List.flatMap_cons, List.count_append]
            rfl
        _ = [c].count '\n' + rest.count '\n' := by rw [count_newline_utf8EncodeChar, ih]
        _ = (c :: rest).count '\n' := by rw [← List.count_append, List.singleton_append]

theorem encode_append (left right : Text) : encode (left ++ right) = encode left ++ encode right :=
  List.flatMap_append

/-- A character of which the first bytes are read: its bits so far, the range of the next byte
with both ends included, and how many bytes follow that one. -/
structure Pending where
  bits : Nat
  low : Nat
  high : Nat
  after : Nat

/-- Items read so far, the last one first, where `none` is a fault; and the character pending. -/
structure Reader where
  items : List (Option Char) := []
  pending : Option Pending := none

/-- What the first byte of a character promises. The bounds on the second byte keep out long
forms, surrogates and numbers beyond the last code point. -/
def lead? (b : Nat) : Option Pending :=
  if 0xC2 ≤ b ∧ b ≤ 0xDF then some ⟨b - 0xC0, 0x80, 0xBF, 0⟩
  else if b = 0xE0 then some ⟨0x0, 0xA0, 0xBF, 1⟩
  else if b = 0xED then some ⟨0xD, 0x80, 0x9F, 1⟩
  else if 0xE1 ≤ b ∧ b ≤ 0xEF then some ⟨b - 0xE0, 0x80, 0xBF, 1⟩
  else if b = 0xF0 then some ⟨0x0, 0x90, 0xBF, 2⟩
  else if 0xF1 ≤ b ∧ b ≤ 0xF3 then some ⟨b - 0xF0, 0x80, 0xBF, 2⟩
  else if b = 0xF4 then some ⟨0x4, 0x80, 0x8F, 2⟩
  else none

namespace Reader

/-- Reads a byte while no character is pending. -/
def start (items : List (Option Char)) (b : Nat) : Reader :=
  if b < 0x80 then { items := some (Char.ofNat b) :: items }
  else match lead? b with
    | some pending => { items, pending := some pending }
    | none => { items := none :: items }

/-- Reads a byte. One that cannot continue the pending character ends it as a fault and is read
afresh. -/
def step (reader : Reader) (byte : UInt8) : Reader :=
  let b := byte.toNat
  match reader.pending with
  | none => start reader.items b
  | some p =>
    if p.low ≤ b ∧ b ≤ p.high then
      let bits := p.bits * 0x40 + (b - 0x80)
      match p.after with
      | 0 => { items := some (Char.ofNat bits) :: reader.items }
      | after + 1 => { reader with pending := some ⟨bits, 0x80, 0xBF, after⟩ }
    else start (none :: reader.items) b

/-- All items, in order. A character still pending at the end is a fault. -/
def finish (reader : Reader) : List (Option Char) :=
  match reader.pending with
  | none => reader.items.reverse
  | some _ => (none :: reader.items).reverse

end Reader

/-- The characters and faults of a sequence of bytes. -/
def scan (bytes : Bytes) : List (Option Char) :=
  (bytes.foldl Reader.step {}).finish

/-- The text of well-formed bytes. -/
def decode? (bytes : Bytes) : Option Text :=
  (scan bytes).mapM id

/-- The text of any bytes, with the replacement character for each fault. -/
def decodeLossy (bytes : Bytes) : Text :=
  (scan bytes).map (·.getD '\uFFFD')

/-! ### Reading back -/

private theorem toNat_byte {b : Nat} (h : b < 256) : (UInt8.ofNat b).toNat = b :=
  UInt8.toNat_ofNat_of_lt' h

theorem lead?_two {n : Nat} (h : 2 ≤ n ∧ n < 32) : lead? (n + 0xC0) = some ⟨n, 0x80, 0xBF, 0⟩ := by
  rw [lead?, if_pos (by omega), Nat.add_sub_cancel]

/-- What the first of three bytes promises leaves room for the second, `m`. -/
theorem lead?_three {n m : Nat} (hn : n < 16) (hm : m < 64) (hlong : n = 0 → 32 ≤ m)
    (hsurrogate : n = 13 → m < 32) :
    ∃ low high, lead? (n + 0xE0) = some ⟨n, low, high, 1⟩ ∧ low ≤ m + 0x80 ∧ m + 0x80 ≤ high := by
  by_cases hzero : n = 0
  · subst hzero
    exact ⟨_, _, rfl, by omega, by omega⟩
  by_cases hthirteen : n = 13
  · subst hthirteen
    exact ⟨_, _, rfl, by omega, by omega⟩
  · rw [lead?, if_neg (by omega), if_neg (by omega), if_neg (by omega), if_pos (by omega),
      Nat.add_sub_cancel]
    exact ⟨_, _, rfl, by omega, by omega⟩

theorem lead?_four {n m : Nat} (hn : n < 5) (hm : m < 64) (hlong : n = 0 → 16 ≤ m)
    (hlast : n = 4 → m < 16) :
    ∃ low high, lead? (n + 0xF0) = some ⟨n, low, high, 2⟩ ∧ low ≤ m + 0x80 ∧ m + 0x80 ≤ high := by
  obtain rfl | rfl | rfl | rfl | rfl : n = 0 ∨ n = 1 ∨ n = 2 ∨ n = 3 ∨ n = 4 := by omega
  all_goals exact ⟨_, _, rfl, by omega, by omega⟩

namespace Reader

variable {items : List (Option Char)} {bits low high n : Nat}

theorem step_ascii (h : n < 0x80) :
    step { items } (UInt8.ofNat n) = { items := some (Char.ofNat n) :: items } := by
  rw [step, toNat_byte (by omega)]
  exact if_pos h

theorem step_lead {pending : Pending} (h : 0x80 ≤ n ∧ n < 0x100) (hlead : lead? n = some pending) :
    step { items } (UInt8.ofNat n) = { items, pending := some pending } := by
  rw [step, toNat_byte (by omega)]
  dsimp only
  rw [start, if_neg (by omega), hlead]

theorem step_next (after : Nat) (h : n < 64) (hlow : low ≤ n + 0x80) (hhigh : n + 0x80 ≤ high) :
    step { items, pending := some ⟨bits, low, high, after + 1⟩ } (UInt8.ofNat (n + 0x80)) =
      { items, pending := some ⟨bits * 0x40 + n, 0x80, 0xBF, after⟩ } := by
  rw [step, toNat_byte (by omega)]
  dsimp only
  rw [if_pos ⟨hlow, hhigh⟩, Nat.add_sub_cancel]

theorem step_last (h : n < 64) :
    step { items, pending := some ⟨bits, 0x80, 0xBF, 0⟩ } (UInt8.ofNat (n + 0x80)) =
      { items := some (Char.ofNat (bits * 0x40 + n)) :: items } := by
  rw [step, toNat_byte (by omega)]
  dsimp only
  rw [if_pos (by omega), Nat.add_sub_cancel]

/-- The bytes of a character are read as that character. -/
theorem foldl_step_utf8EncodeChar (items : List (Option Char)) (c : Char) :
    (String.utf8EncodeChar c).foldl step { items } = { items := some c :: items } := by
  have hvalid : c.toNat < 0xD800 ∨ 0xDFFF < c.toNat ∧ c.toNat < 0x110000 := c.valid
  fun_cases String.utf8EncodeChar c with
  | case1 v hone =>
      change c.toNat ≤ 0x7F at hone
      change [UInt8.ofNat c.toNat].foldl step _ = _
      rw [List.foldl_cons, step_ascii (by omega), Char.ofNat_toNat]
      rfl
  | case2 v hone htwo =>
      change ¬ c.toNat ≤ 0x7F at hone
      change c.toNat ≤ 0x7FF at htwo
      have hbits : c.toNat / 64 % 32 * 0x40 + c.toNat % 64 = c.toNat := by omega
      change [UInt8.ofNat (c.toNat / 64 % 32 + 0xC0), UInt8.ofNat (c.toNat % 64 + 0x80)].foldl step _ = _
      rw [List.foldl_cons, step_lead (by omega) (lead?_two (by omega)), List.foldl_cons,
        step_last (by omega), hbits, Char.ofNat_toNat]
      rfl
  | case3 v hone htwo hthree =>
      change ¬ c.toNat ≤ 0x7FF at htwo
      change c.toNat ≤ 0xFFFF at hthree
      obtain ⟨low, high, hlead, hlow, hhigh⟩ := @lead?_three (c.toNat / 4096 % 16) (c.toNat / 64 % 64)
        (by omega) (by omega) (by omega) (by omega)
      have hbits : (c.toNat / 4096 % 16 * 0x40 + c.toNat / 64 % 64) * 0x40 + c.toNat % 64 = c.toNat := by
        omega
      change [UInt8.ofNat (c.toNat / 4096 % 16 + 0xE0), UInt8.ofNat (c.toNat / 64 % 64 + 0x80),
        UInt8.ofNat (c.toNat % 64 + 0x80)].foldl step _ = _
      rw [List.foldl_cons, step_lead (by omega) hlead, List.foldl_cons,
        step_next 0 (by omega) hlow hhigh, List.foldl_cons, step_last (by omega), hbits, Char.ofNat_toNat]
      rfl
  | case4 v hone htwo hthree =>
      change ¬ c.toNat ≤ 0xFFFF at hthree
      obtain ⟨low, high, hlead, hlow, hhigh⟩ := @lead?_four (c.toNat / 262144 % 8) (c.toNat / 4096 % 64)
        (by omega) (by omega) (by omega) (by omega)
      have hbits : ((c.toNat / 262144 % 8 * 0x40 + c.toNat / 4096 % 64) * 0x40 + c.toNat / 64 % 64) * 0x40 +
          c.toNat % 64 = c.toNat := by
        omega
      change [UInt8.ofNat (c.toNat / 262144 % 8 + 0xF0), UInt8.ofNat (c.toNat / 4096 % 64 + 0x80),
        UInt8.ofNat (c.toNat / 64 % 64 + 0x80), UInt8.ofNat (c.toNat % 64 + 0x80)].foldl step _ = _
      rw [List.foldl_cons, step_lead (by omega) hlead, List.foldl_cons,
        step_next 1 (by omega) hlow hhigh, List.foldl_cons, step_next 0 (by omega) (by omega) (by omega),
        List.foldl_cons, step_last (by omega), hbits, Char.ofNat_toNat]
      rfl

theorem foldl_step_encode (items : List (Option Char)) (text : Text) :
    (encode text).foldl step { items } = { items := text.reverse.map some ++ items } := by
  induction text generalizing items with
  | nil => rfl
  | cons c rest ih =>
      rw [encode, List.flatMap_cons, List.foldl_append, foldl_step_utf8EncodeChar, ← encode, ih,
        List.reverse_cons, List.map_append, List.append_assoc]
      rfl

end Reader

/-- A text is read back from its bytes without faults. -/
theorem scan_encode (text : Text) : scan (encode text) = text.map some := by
  rw [scan, Reader.foldl_step_encode, List.append_nil, Reader.finish, List.map_reverse,
    List.reverse_reverse]

theorem decode?_encode (text : Text) : decode? (encode text) = some text := by
  rw [decode?, scan_encode]
  induction text with
  | nil => rfl
  | cons c rest ih => simp [ih]

theorem decodeLossy_encode (text : Text) : decodeLossy (encode text) = text := by
  rw [decodeLossy, scan_encode, List.map_map]
  exact List.map_id _

end Utf8

end AsmLink
