import Backpressure.Text.Percent

/-!
# Reading back what was encoded

* `Utf8.decodeFrom_first`, `decodeFrom_next`, `decodeFrom_last` : how the first, a middle and the last byte of a
  character are read;
* `Utf8.decodeFrom_encodeChar` : the bytes of a character are read as that character, one case for each number of bytes;
* `Utf8.decode_encode` : so are the bytes of a text;
* `Percent.toBytes_encode` : a percent-encoded text stands for the bytes of the text;
* `Percent.isPlain_of_mem_encode` : it has no characters but plain ones and percent signs.
-/

namespace Backpressure.Text

/-! ## Bytes of a character -/

namespace Utf8

theorem toNat_ofNat_byte {n : Nat} (h : n < 256) : (UInt8.ofNat n).toNat = n := by
  rw [UInt8.toNat_ofNat']
  exact Nat.mod_eq_of_lt h

variable {n low high bits : Nat} {bs : List UInt8}

theorem decodeFrom_first (h : n < 256) :
    decodeFrom none (UInt8.ofNat n :: bs) = (start n).1 ++ decodeFrom (start n).2 bs := by
  rw [← toNat_ofNat_byte h, UInt8.ofNat_toNat]
  rfl

theorem decodeFrom_next (hlow : low ≤ n) (hhigh : n ≤ high) (h : n < 256) (missing : Nat) :
    decodeFrom (some ⟨missing + 2, low, high, bits⟩) (UInt8.ofNat n :: bs) =
      decodeFrom (some ⟨missing + 1, 0x80, 0xBF, bits * 64 + (n - 0x80)⟩) bs := by
  have hfeed : feed (some ⟨missing + 2, low, high, bits⟩) n =
      ([], some ⟨missing + 1, 0x80, 0xBF, bits * 64 + (n - 0x80)⟩) := if_pos ⟨hlow, hhigh⟩
  rw [decodeFrom, toNat_ofNat_byte h, hfeed]
  rfl

theorem decodeFrom_last (hlow : low ≤ n) (hhigh : n ≤ high) (h : n < 256) :
    decodeFrom (some ⟨1, low, high, bits⟩) (UInt8.ofNat n :: bs) =
      Char.ofNat (bits * 64 + (n - 0x80)) :: decodeFrom none bs := by
  have hfeed : feed (some ⟨1, low, high, bits⟩) n = ([Char.ofNat (bits * 64 + (n - 0x80))], none) :=
    if_pos ⟨hlow, hhigh⟩
  rw [decodeFrom, toNat_ofNat_byte h, hfeed]
  rfl

theorem start_one (hhigh : n < 0x80) : start n = ([Char.ofNat n], none) := by
  unfold start
  rw [if_pos hhigh]

theorem start_two (hlow : 0xC2 ≤ n) (hhigh : n < 0xE0) : start n = ([], some ⟨1, 0x80, 0xBF, n - 0xC0⟩) := by
  unfold start
  rw [if_neg (by omega), if_neg (by omega), if_pos hhigh]

theorem start_three (hlow : 0xE0 ≤ n) (hhigh : n < 0xF0) : start n =
    ([], some ⟨2, if n = 0xE0 then 0xA0 else 0x80, if n = 0xED then 0x9F else 0xBF, n - 0xE0⟩) := by
  unfold start
  rw [if_neg (by omega), if_neg (by omega), if_neg (by omega), if_pos hhigh]

theorem start_four (hlow : 0xF0 ≤ n) (hhigh : n < 0xF5) : start n =
    ([], some ⟨3, if n = 0xF0 then 0x90 else 0x80, if n = 0xF4 then 0x8F else 0xBF, n - 0xF0⟩) := by
  unfold start
  rw [if_neg (by omega), if_neg (by omega), if_neg (by omega), if_neg (by omega), if_pos hhigh]

/-! ## Characters of one to four bytes -/

variable {v : Nat} (rest : List UInt8)

theorem decodeFrom_one (hhigh : v ≤ 127) :
    decodeFrom none (UInt8.ofNat v :: rest) = Char.ofNat v :: decodeFrom none rest := by
  rw [decodeFrom_first (by omega), start_one (by omega)]
  rfl

theorem decodeFrom_two (hlow : 127 < v) (hhigh : v ≤ 2047) :
    decodeFrom none (UInt8.ofNat (v / 64 % 32 + 192) :: UInt8.ofNat (v % 64 + 128) :: rest) =
      Char.ofNat v :: decodeFrom none rest := by
  have hbits : (v / 64 % 32 + 192 - 0xC0) * 64 + (v % 64 + 128 - 0x80) = v := by omega
  rw [decodeFrom_first (by omega), start_two (by omega) (by omega), List.nil_append,
    decodeFrom_last (by omega) (by omega) (by omega), hbits]

/-- The code points of surrogates are not those of characters. -/
theorem decodeFrom_three (hlow : 2047 < v) (hhigh : v ≤ 65535) (hvalid : v < 55296 ∨ 57343 < v) :
    decodeFrom none (UInt8.ofNat (v / 4096 % 16 + 224) :: UInt8.ofNat (v / 64 % 64 + 128) ::
      UInt8.ofNat (v % 64 + 128) :: rest) = Char.ofNat v :: decodeFrom none rest := by
  have hbits : ((v / 4096 % 16 + 224 - 0xE0) * 64 + (v / 64 % 64 + 128 - 0x80)) * 64 + (v % 64 + 128 - 0x80) = v := by
    omega
  rw [decodeFrom_first (by omega), start_three (by omega) (by omega), List.nil_append,
    decodeFrom_next (by split <;> omega) (by split <;> omega) (by omega),
    decodeFrom_last (by omega) (by omega) (by omega), hbits]

theorem decodeFrom_four (hlow : 65535 < v) (hhigh : v < 1114112) :
    decodeFrom none (UInt8.ofNat (v / 262144 % 8 + 240) :: UInt8.ofNat (v / 4096 % 64 + 128) ::
      UInt8.ofNat (v / 64 % 64 + 128) :: UInt8.ofNat (v % 64 + 128) :: rest) = Char.ofNat v :: decodeFrom none rest := by
  have hbits : (((v / 262144 % 8 + 240 - 0xF0) * 64 + (v / 4096 % 64 + 128 - 0x80)) * 64 +
      (v / 64 % 64 + 128 - 0x80)) * 64 + (v % 64 + 128 - 0x80) = v := by omega
  rw [decodeFrom_first (by omega), start_four (by omega) (by omega), List.nil_append,
    decodeFrom_next (by split <;> omega) (by split <;> omega) (by omega),
    decodeFrom_next (by omega) (by omega) (by omega), decodeFrom_last (by omega) (by omega) (by omega), hbits]

/-- The bytes of a character are read as that character. -/
theorem decodeFrom_encodeChar (c : Char) :
    decodeFrom none (String.utf8EncodeChar c ++ rest) = c :: decodeFrom none rest := by
  have hvalid : c.val.toNat < 55296 ∨ 57343 < c.val.toNat ∧ c.val.toNat < 1114112 := c.valid
  have hback : Char.ofNat c.val.toNat = c := Char.ofNat_toNat c
  unfold String.utf8EncodeChar
  dsimp only
  generalize c.val.toNat = v at hvalid hback
  rw [← hback]
  split
  · next hone => exact decodeFrom_one rest hone
  · next hone =>
    split
    · next htwo => exact decodeFrom_two rest (by omega) htwo
    · next htwo =>
      split
      · next hthree => exact decodeFrom_three rest (by omega) hthree (by omega)
      · next hthree => exact decodeFrom_four rest (by omega) (by omega)

/-! ## Texts -/

/-- The bytes of a text are read as that text. -/
theorem decode_encode (s : List Char) : decode (encode s) = s := by
  unfold decode encode
  induction s with
  | nil => rfl
  | cons c rest ih => rw [List.flatMap_cons, decodeFrom_encodeChar, ih]

end Utf8

/-! ## Percent signs -/

namespace Percent

theorem hexValue?_hexDigit {n : Nat} (h : n < 16) : hexValue? (hexDigit n) = some n := by
  have hall : ∀ m : Fin 16, hexValue? (hexDigit m) = some m := by decide
  exact hall ⟨n, h⟩

theorem isPlain_hexDigit {n : Nat} (h : n < 16) : isPlain (hexDigit n) = true := by
  have hall : ∀ m : Fin 16, isPlain (hexDigit m) = true := by decide
  exact hall ⟨n, h⟩

theorem toBytes_encodeByte (b : UInt8) (rest : List Char) : toBytes (encodeByte b ++ rest) = b :: toBytes rest := by
  have hb : b.toNat < 256 := b.toNat_lt
  have hjoin : 16 * (b.toNat / 16) + b.toNat % 16 = b.toNat := by omega
  show toBytes (sign :: hexDigit (b.toNat / 16) :: hexDigit (b.toNat % 16) :: rest) = _
  rw [toBytes, if_pos rfl]
  simp only [hexValue?_hexDigit (show b.toNat / 16 < 16 by omega), hexValue?_hexDigit (show b.toNat % 16 < 16 by omega)]
  rw [hjoin, UInt8.ofNat_toNat]

theorem toBytes_cons {c : Char} (h : c ≠ sign) (rest : List Char) :
    toBytes (c :: rest) = String.utf8EncodeChar c ++ toBytes rest := by
  rw [toBytes.eq_def]
  exact if_neg h

theorem toBytes_encodeChar (c : Char) (rest : List Char) :
    toBytes (encodeChar c ++ rest) = String.utf8EncodeChar c ++ toBytes rest := by
  have hbytes (bs : List UInt8) : toBytes (bs.flatMap encodeByte ++ rest) = bs ++ toBytes rest := by
    induction bs with
    | nil => rfl
    | cons b bs ih => rw [List.flatMap_cons, List.append_assoc, toBytes_encodeByte, ih, List.cons_append]
  unfold encodeChar
  split
  · next hplain =>
    refine toBytes_cons ?_ rest
    rintro rfl
    exact absurd hplain (by decide)
  · exact hbytes _

theorem toBytes_encode (s rest : List Char) : toBytes (encode s ++ rest) = Utf8.encode s ++ toBytes rest := by
  unfold encode Utf8.encode
  induction s with
  | nil => rfl
  | cons c s ih =>
    rw [List.flatMap_cons, List.flatMap_cons, List.append_assoc, List.append_assoc, toBytes_encodeChar, ih]

/-- A text without percent signs stands for its own bytes. -/
theorem toBytes_append {s : List Char} (h : sign ∉ s) (rest : List Char) :
    toBytes (s ++ rest) = Utf8.encode s ++ toBytes rest := by
  induction s with
  | nil => rfl
  | cons c s ih =>
    obtain ⟨hc, hs⟩ := List.ne_and_not_mem_of_not_mem_cons h
    rw [List.cons_append, toBytes_cons hc.symm, ih hs, Utf8.encode, Utf8.encode, List.flatMap_cons,
      List.append_assoc]

theorem isPlain_of_mem_encode {s : List Char} {c : Char} (h : c ∈ encode s) : isPlain c = true ∨ c = sign := by
  obtain ⟨d, -, hd⟩ := List.mem_flatMap.mp h
  unfold encodeChar at hd
  split at hd
  · next hplain =>
    rw [List.mem_singleton.mp hd]
    exact .inl hplain
  · obtain ⟨b, -, hb⟩ := List.mem_flatMap.mp hd
    have hlt : b.toNat < 256 := b.toNat_lt
    simp only [encodeByte, List.mem_cons, List.not_mem_nil, or_false] at hb
    rcases hb with rfl | rfl | rfl
    · exact .inr rfl
    · exact .inl (isPlain_hexDigit (by omega))
    · exact .inl (isPlain_hexDigit (by omega))

end Percent

end Backpressure.Text
