import TsBuild.Text.Basic

/-!
# Text as bytes

In UTF-8 a character of one byte stands for itself and is part of no other character (`mem_utf8EncodeChar`), so
a scan of the bytes for such characters finds those of the text. Texts are in the order of their bytes (`bytes_lt`).
-/

namespace TsBuild.Text

variable {c k : Char} {cs : List Char} {b : UInt8}

def encode (cs : List Char) : List UInt8 := cs.flatMap String.utf8EncodeChar

def bytes (text : String) : List UInt8 := text.toUTF8.data.toList

@[simp] theorem encode_nil : encode [] = [] := rfl

@[simp] theorem encode_cons (c : Char) (cs : List Char) :
    encode (c :: cs) = String.utf8EncodeChar c ++ encode cs := rfl

@[simp] theorem encode_append (as bs : List Char) : encode (as ++ bs) = encode as ++ encode bs :=
  List.flatMap_append

theorem bytes_ofList (cs : List Char) : bytes (String.ofList cs) = encode cs := by
  simp [bytes, encode, String.toUTF8_eq_toByteArray, List.utf8Encode]

theorem bytes_eq (text : String) : bytes text = encode text.toList := by
  rw [← bytes_ofList, String.ofList_toList]

theorem fromUTF8_bytes (text : String) : String.fromUTF8? (bytes text).toByteArray = some text := by
  have hbytes : (bytes text).toByteArray = text.toByteArray := by
    apply ByteArray.ext
    simp [bytes, String.toUTF8_eq_toByteArray]
  have hvalid : text.toByteArray.IsValidUTF8 := text.isValidUTF8
  rw [hbytes, String.fromUTF8?, dif_pos hvalid]
  rfl

theorem length_encode (cs : List Char) : (encode cs).length = byteLength cs := by
  induction cs with
  | nil => rfl
  | cons c cs ih => simp [ih, byteLength, String.length_utf8EncodeChar]

theorem utf8ByteSize_eq (text : String) : text.utf8ByteSize = byteLength text.toList := by
  rw [← length_encode, ← bytes_eq]
  rfl

theorem le_or (a : UInt8) (h : 128 ≤ b) : 128 ≤ a ||| b := by
  rw [UInt8.le_iff_toNat_le] at h ⊢
  rw [UInt8.toNat_or]
  exact Nat.le_trans h Nat.right_le_or

theorem utf8EncodeChar_of_one (h : c.utf8Size = 1) : String.utf8EncodeChar c = [c.toUInt8] :=
  String.utf8EncodeChar_eq_singleton h

theorem encode_cons_of_one (h : c.utf8Size = 1) (cs : List Char) : encode (c :: cs) = c.toUInt8 :: encode cs := by
  rw [encode_cons, utf8EncodeChar_of_one h, List.singleton_append]

theorem le_of_mem_utf8EncodeChar (h : c.utf8Size ≠ 1) (hmem : b ∈ String.utf8EncodeChar c) : 128 ≤ b := by
  rcases Char.utf8Size_eq c with hone | htwo | hthree | hfour
  · exact absurd hone h
  · simp only [String.utf8EncodeChar_eq_cons_cons htwo, List.mem_cons, List.not_mem_nil, or_false] at hmem
    rcases hmem with rfl | rfl <;> exact le_or _ (by decide)
  · simp only [String.utf8EncodeChar_eq_cons_cons_cons hthree, List.mem_cons, List.not_mem_nil, or_false] at hmem
    rcases hmem with rfl | rfl | rfl <;> exact le_or _ (by decide)
  · simp only [String.utf8EncodeChar_eq_cons_cons_cons_cons hfour, List.mem_cons, List.not_mem_nil,
      or_false] at hmem
    rcases hmem with rfl | rfl | rfl | rfl <;> exact le_or _ (by decide)

theorem toNat_toUInt8 (h : k.utf8Size = 1) : k.toUInt8.toNat = k.toNat ∧ k.toNat < 128 := by
  have hle : k.toNat ≤ 127 := by
    rw [Char.utf8Size_eq_one_iff, UInt32.le_iff_toNat_le] at h
    exact h
  refine ⟨?_, by omega⟩
  show k.toNat % 256 = k.toNat
  omega

theorem mem_utf8EncodeChar (h : k.utf8Size = 1) : k.toUInt8 ∈ String.utf8EncodeChar c ↔ c = k := by
  have hk := toNat_toUInt8 h
  by_cases hc : c.utf8Size = 1
  · rw [utf8EncodeChar_of_one hc, List.mem_singleton]
    constructor
    · intro heq
      have hnat := congrArg UInt8.toNat heq
      rw [hk.1, (toNat_toUInt8 hc).1] at hnat
      exact (Char.toNat_inj.mp hnat).symm
    · rintro rfl
      rfl
  · constructor
    · intro hmem
      have hle := UInt8.le_iff_toNat_le.mp (le_of_mem_utf8EncodeChar hc hmem)
      rw [hk.1] at hle
      exact absurd hle (Nat.not_le.mpr hk.2)
    · rintro rfl
      exact absurd h hc

theorem head_encode (h : k.utf8Size = 1) : (encode cs).head? = some k.toUInt8 ↔ cs.head? = some k := by
  cases cs with
  | nil => simp
  | cons c cs =>
    obtain ⟨b, rest, hbytes⟩ := List.exists_cons_of_ne_nil (String.utf8EncodeChar_ne_nil (c := c))
    simp only [encode_cons, hbytes, List.cons_append, List.head?_cons, Option.some.injEq]
    constructor
    · rintro rfl
      exact (mem_utf8EncodeChar h).mp (by simp [hbytes])
    · rintro rfl
      rw [utf8EncodeChar_of_one h] at hbytes
      exact (List.cons.inj hbytes).1.symm

-- ---------------------------------------------------------------------------
-- Order
-- ---------------------------------------------------------------------------

/-- Numbers are compared digit by digit. -/
theorem digits_lt {m n : Nat} (h : m < n) (base : Nat) :
    m / base < n / base ∨ m / base = n / base ∧ m % base < n % base := by
  rcases Nat.lt_or_eq_of_le (Nat.div_le_div_right (Nat.le_of_lt h)) with hlt | heq
  · exact .inl hlt
  · refine .inr ⟨heq, ?_⟩
    have hm := Nat.div_add_mod m base
    have hn := Nat.div_add_mod n base
    rw [heq] at hm
    omega

/-- The bytes of a character decide the order against those of a greater one, whatever follows. -/
theorem utf8EncodeChar_lt {d : Char} (h : c < d) (xs ys : List UInt8) :
    String.utf8EncodeChar c ++ xs < String.utf8EncodeChar d ++ ys := by
  have hlt : c.val.toNat < d.val.toNat := h
  have hd : d.val.toNat < 1114112 := by
    have hvalid := d.valid
    unfold UInt32.isValidChar Nat.isValidChar at hvalid
    omega
  unfold String.utf8EncodeChar
  generalize c.val.toNat = m at hlt ⊢
  generalize d.val.toNat = n at hlt hd ⊢
  have hfourth := digits_lt hlt 262144
  have hthird := digits_lt hlt 4096
  have hsecond := digits_lt hlt 64
  -- one case for each pair of lengths
  simp only
  repeat' split
  all_goals
    simp only [List.cons_append, List.nil_append, List.cons_lt_cons_iff, UInt8.lt_iff_toNat_lt,
      ← UInt8.toNat_inj, UInt8.toNat_ofNat']
    simp (disch := omega) only [Nat.mod_eq_of_lt]
    omega

theorem encode_lt {ds : List Char} (h : cs < ds) : encode cs < encode ds := by
  induction h with
  | @nil d ds =>
    rw [encode_nil, encode_cons]
    obtain ⟨b, bs, hbytes⟩ := List.exists_cons_of_ne_nil (String.utf8EncodeChar_ne_nil (c := d))
    rw [hbytes]
    exact .nil
  | rel h => exact utf8EncodeChar_lt h _ _
  | cons _ ih => exact List.append_left_lt ih

theorem bytes_lt {text other : String} (h : text < other) : bytes text < bytes other := by
  rw [bytes_eq, bytes_eq]
  exact encode_lt h

end TsBuild.Text
