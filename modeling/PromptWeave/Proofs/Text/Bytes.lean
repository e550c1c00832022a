import Mathlib.Data.String.Basic
import PromptWeave.Text.Utf8

/-!
# Bytes of a text

Cutting a text to a number of bytes gives its longest beginning that fits, and the bytes of a text
read back as the text. Main statements: `isLongestFront_takeBytes`, `decode?_encode`.
-/
namespace PromptWeave.Text

open String (utf8Len utf8Len_append utf8Len_cons utf8Len_nil utf8Len_toList)

/-! ### Cutting -/

/-- What it is to be the longest beginning of a text with at most a number of bytes. Beginnings are
made of whole characters. -/
structure IsLongestFront (room : Nat) (text front : String) : Prop where
  begins : front.toList <+: text.toList
  fits : front.utf8ByteSize ≤ room
  longest : ∀ other : String, other.toList <+: text.toList → other.utf8ByteSize ≤ room →
    other.toList <+: front.toList

/-- What was taken before stands in front. -/
theorem takeBytesFrom_eq (room : Nat) (done cs : List Char) :
    takeBytesFrom room done cs = done.reverse ++ takeBytesFrom room [] cs := by
  induction cs generalizing room done with
  | nil => simp [takeBytesFrom]
  | cons c cs ih =>
      by_cases hfits : c.utf8Size ≤ room
      · simp only [takeBytesFrom, if_pos hfits]
        rw [ih _ (c :: done), ih _ [c]]
        simp
      · simp [takeBytesFrom, hfits]

theorem takeBytesFrom_cons (room : Nat) (c : Char) (cs : List Char) :
    takeBytesFrom room [] (c :: cs) =
      if c.utf8Size ≤ room then c :: takeBytesFrom (room - c.utf8Size) [] cs else [] := by
  simp only [takeBytesFrom]
  rw [takeBytesFrom_eq]
  rfl

/-- What fits is taken, and then what fits into the room that is left. -/
theorem takeBytesFrom_append_of_le {room : Nat} {front : List Char} (h : utf8Len front ≤ room)
    (rest : List Char) :
    takeBytesFrom room [] (front ++ rest) = front ++ takeBytesFrom (room - utf8Len front) [] rest := by
  induction front generalizing room with
  | nil => simp
  | cons c front ih =>
      rw [utf8Len_cons] at h
      have hfront : utf8Len front ≤ room - c.utf8Size := by omega
      have hroom : room - c.utf8Size - utf8Len front = room - utf8Len (c :: front) := by
        rw [utf8Len_cons]
        omega
      rw [List.cons_append, takeBytesFrom_cons, if_pos (by omega), ih hfront, hroom, List.cons_append]

/-- Behind what fills the room nothing is taken. -/
theorem takeBytesFrom_append_of_ge {room : Nat} {front : List Char} (h : room ≤ utf8Len front)
    (rest : List Char) : takeBytesFrom room [] (front ++ rest) = takeBytesFrom room [] front := by
  induction front generalizing room with
  | nil =>
      obtain rfl : room = 0 := Nat.le_zero.1 h
      cases rest with
      | nil => rfl
      | cons c rest =>
          have hpos := c.utf8Size_pos
          rw [List.nil_append, takeBytesFrom_cons, if_neg (by omega)]
          rfl
  | cons c front ih =>
      rw [List.cons_append, takeBytesFrom_cons, takeBytesFrom_cons]
      split
      · rw [utf8Len_cons] at h
        rw [ih (by omega)]
      · rfl

theorem takeBytesFrom_isPrefix (room : Nat) (cs : List Char) : takeBytesFrom room [] cs <+: cs := by
  induction cs generalizing room with
  | nil => exact List.prefix_rfl
  | cons c cs ih =>
      rw [takeBytesFrom_cons]
      split
      · exact (List.prefix_cons_inj c).2 (ih _)
      · exact List.nil_prefix

theorem utf8Len_takeBytesFrom_le (room : Nat) (cs : List Char) :
    utf8Len (takeBytesFrom room [] cs) ≤ room := by
  induction cs generalizing room with
  | nil => exact Nat.zero_le _
  | cons c cs ih =>
      rw [takeBytesFrom_cons]
      split
      · have hrest := ih (room - c.utf8Size)
        rw [utf8Len_cons]
        omega
      · exact Nat.zero_le _

@[simp] theorem toList_takeBytes (room : Nat) (text : String) :
    (takeBytes room text).toList = takeBytesFrom room [] text.toList := by
  rw [takeBytes, String.toList_ofList]

/-- What fits is taken, and then what fits into the room that is left. -/
theorem takeBytes_append_of_le {room : Nat} {front : String} (h : front.utf8ByteSize ≤ room)
    (rest : String) :
    takeBytes room (front ++ rest) = front ++ takeBytes (room - front.utf8ByteSize) rest := by
  rw [← utf8Len_toList] at h ⊢
  refine String.toList_injective ?_
  simp only [toList_takeBytes, String.toList_append]
  exact takeBytesFrom_append_of_le h rest.toList

/-- Behind what fills the room nothing is taken. -/
theorem takeBytes_append_of_ge {room : Nat} {front : String} (h : room ≤ front.utf8ByteSize)
    (rest : String) : takeBytes room (front ++ rest) = takeBytes room front := by
  rw [← utf8Len_toList] at h
  refine String.toList_injective ?_
  simp only [toList_takeBytes, String.toList_append]
  exact takeBytesFrom_append_of_ge h rest.toList

/-- What a text is cut to is its longest beginning that fits. -/
theorem isLongestFront_takeBytes (room : Nat) (text : String) :
    IsLongestFront room text (takeBytes room text) where
  begins := by
    rw [toList_takeBytes]
    exact takeBytesFrom_isPrefix room text.toList
  fits := by
    rw [← utf8Len_toList, toList_takeBytes]
    exact utf8Len_takeBytesFrom_le room text.toList
  longest other hother hfits := by
    obtain ⟨rest, hrest⟩ := hother
    rw [← utf8Len_toList] at hfits
    rw [toList_takeBytes, ← hrest, takeBytesFrom_append_of_le hfits]
    exact List.prefix_append _ _

/-! ### Reading back -/

theorem toList_loop (array : ByteArray) (i : Nat) (done : List UInt8) :
    ByteArray.toList.loop array i done = done.reverse ++ array.data.toList.drop i := by
  fun_induction ByteArray.toList.loop array i done with
  | case1 i done hlt ih =>
      have hlength : i < array.data.toList.length := by simpa using hlt
      have hget : array.get! i = array.data.toList[i] := by
        have hin : array.get! i = array.data[i]! := rfl
        rw [hin, getElem!_pos array.data i hlt, Array.getElem_toList]
      rw [ih, List.drop_eq_getElem_cons hlength, hget]
      simp
  | case2 i done hge =>
      have hend : array.data.toList.length ≤ i := by simpa using hge
      rw [List.drop_eq_nil_of_le hend, List.append_nil]

theorem toList_toByteArray (bytes : List UInt8) : bytes.toByteArray.toList = bytes := by
  rw [ByteArray.toList, toList_loop, List.toList_data_toByteArray]
  rfl

/-- The bytes of a text are those of its characters, one after the other. -/
theorem encode_eq (text : String) : encode text = text.toList.flatMap String.utf8EncodeChar := by
  rw [encode, String.toUTF8_eq_toByteArray, ← String.utf8Encode_toList, List.utf8Encode,
    toList_toByteArray]

theorem continuation?_eq {lead : Nat} (hlow : 0xC2 ≤ lead) (hhigh : lead ≤ 0xF4) :
    continuation? (.ofNat lead) = some
      (if lead = 0xE0 then 0xA0 else if lead = 0xF0 then 0x90 else 0x80,
        if lead = 0xED then 0x9F else if lead = 0xF4 then 0x8F else 0xBF,
        if lead < 0xE0 then 1 else if lead < 0xF0 then 2 else 3) := by
  have hall : ∀ n : Fin 256, 0xC2 ≤ n.val → n.val ≤ 0xF4 → continuation? (.ofNat n.val) = some
      (if n.val = 0xE0 then 0xA0 else if n.val = 0xF0 then 0x90 else 0x80,
        if n.val = 0xED then 0x9F else if n.val = 0xF4 then 0x8F else 0xBF,
        if n.val < 0xE0 then 1 else if n.val < 0xF0 then 2 else 3) := by decide +kernel
  exact hall ⟨lead, by omega⟩ hlow hhigh

theorem toNat_byte {b : Nat} (h : b < 256) : (UInt8.ofNat b).toNat = b := UInt8.toNat_ofNat_of_lt h

/-- A byte in the range that is allowed adds its six lower bits. -/
theorem takeContinuation_cons {low high b : Nat} (hlow : low ≤ b) (hhigh : b ≤ high) (hbyte : b < 256)
    (wanted taken value : Nat) (rest : List UInt8) :
    takeContinuation low high (wanted + 1) taken value (.ofNat b :: rest) =
      takeContinuation 0x80 0xBF wanted (taken + 1) (value * 64 + b % 64) rest := by
  simp only [takeContinuation, toNat_byte hbyte, hlow, hhigh, decide_true, Bool.and_true, if_true]

theorem charAt_two {a b : Nat} (ha : 0xC2 ≤ a ∧ a ≤ 0xDF) (hb : 0x80 ≤ b ∧ b ≤ 0xBF)
    (rest : List UInt8) :
    charAt (.ofNat a) (.ofNat b :: rest) = (some (.ofNat (a % 32 * 64 + b % 64)), 1) := by
  have hlead : continuation? (.ofNat a) = some (0x80, 0xBF, 1) := by
    rw [continuation?_eq (by omega) (by omega), if_neg (by omega), if_neg (by omega),
      if_neg (by omega), if_neg (by omega), if_pos (by omega)]
  rw [charAt, toNat_byte (by omega), if_neg (by omega), hlead]
  simp only [takeContinuation_cons hb.1 hb.2 (by omega)]
  rfl

theorem charAt_three {a b c : Nat} (ha : 0xE0 ≤ a ∧ a ≤ 0xEF)
    (hb : (if a = 0xE0 then 0xA0 else 0x80) ≤ b ∧ b ≤ if a = 0xED then 0x9F else 0xBF)
    (hc : 0x80 ≤ c ∧ c ≤ 0xBF) (rest : List UInt8) :
    charAt (.ofNat a) (.ofNat b :: .ofNat c :: rest) =
      (some (.ofNat ((a % 16 * 64 + b % 64) * 64 + c % 64)), 2) := by
  have hlead : continuation? (.ofNat a) = some
      (if a = 0xE0 then 0xA0 else 0x80, if a = 0xED then 0x9F else 0xBF, 2) := by
    rw [continuation?_eq (by omega) (by omega), if_neg (by omega : a ≠ 0xF0),
      if_neg (by omega : a ≠ 0xF4), if_neg (by omega : ¬a < 0xE0), if_pos (by omega : a < 0xF0)]
  have hbyte : b ≤ 0xBF := hb.2.trans (by split <;> omega)
  rw [charAt, toNat_byte (by omega), if_neg (by omega), hlead]
  simp only [takeContinuation_cons hb.1 hb.2 (by omega), takeContinuation_cons hc.1 hc.2 (by omega)]
  rfl

theorem charAt_four {a b c d : Nat} (ha : 0xF0 ≤ a ∧ a ≤ 0xF4)
    (hb : (if a = 0xF0 then 0x90 else 0x80) ≤ b ∧ b ≤ if a = 0xF4 then 0x8F else 0xBF)
    (hc : 0x80 ≤ c ∧ c ≤ 0xBF) (hd : 0x80 ≤ d ∧ d ≤ 0xBF) (rest : List UInt8) :
    charAt (.ofNat a) (.ofNat b :: .ofNat c :: .ofNat d :: rest) =
      (some (.ofNat (((a % 8 * 64 + b % 64) * 64 + c % 64) * 64 + d % 64)), 3) := by
  have hlead : continuation? (.ofNat a) = some
      (if a = 0xF0 then 0x90 else 0x80, if a = 0xF4 then 0x8F else 0xBF, 3) := by
    rw [continuation?_eq (by omega) (by omega), if_neg (by omega : a ≠ 0xE0),
      if_neg (by omega : a ≠ 0xED), if_neg (by omega : ¬a < 0xE0), if_neg (by omega : ¬a < 0xF0)]
  have hbyte : b ≤ 0xBF := hb.2.trans (by split <;> omega)
  rw [charAt, toNat_byte (by omega), if_neg (by omega), hlead]
  simp only [takeContinuation_cons hb.1 hb.2 (by omega), takeContinuation_cons hc.1 hc.2 (by omega),
    takeContinuation_cons hd.1 hd.2 (by omega)]
  rfl

/-- The bytes of a character read back as the character, whatever comes after them. -/
theorem charAt_utf8EncodeChar (c : Char) (rest : List UInt8) :
    ∃ lead tail, String.utf8EncodeChar c = lead :: tail ∧
      charAt lead (tail ++ rest) = (some c, tail.length) := by
  have hchar : Char.ofNat c.val.toNat = c := Char.ofNat_toNat c
  have hvalid : c.val.toNat < 0xD800 ∨ 0xDFFF < c.val.toNat ∧ c.val.toNat < 0x110000 := c.valid
  unfold String.utf8EncodeChar
  generalize c.val.toNat = v at hchar hvalid
  rcases hchar
  -- One case for each number of bytes; the ranges of the bytes are arithmetic.
  by_cases hone : v ≤ 0x7F
  · refine ⟨_, _, if_pos hone, ?_⟩
    rw [charAt, toNat_byte (by omega), if_pos (by omega)]
    rfl
  by_cases htwo : v ≤ 0x7FF
  · refine ⟨_, _, (if_neg hone).trans (if_pos htwo), (charAt_two ?_ ?_ rest).trans ?_⟩
    · omega
    · omega
    · have hvalue : (v / 64 % 0x20 + 0xC0) % 32 * 64 + (v % 0x40 + 0x80) % 64 = v := by omega
      rw [hvalue]
      rfl
  by_cases hthree : v ≤ 0xFFFF
  · refine ⟨_, _, (if_neg hone).trans ((if_neg htwo).trans (if_pos hthree)),
      (charAt_three ?_ ?_ ?_ rest).trans ?_⟩
    · omega
    · constructor
      · split <;> omega
      · split <;> omega
    · omega
    · have hvalue : ((v / 4096 % 0x10 + 0xE0) % 16 * 64 + (v / 64 % 0x40 + 0x80) % 64) * 64 +
          (v % 0x40 + 0x80) % 64 = v := by omega
      rw [hvalue]
      rfl
  · refine ⟨_, _, (if_neg hone).trans ((if_neg htwo).trans (if_neg hthree)),
      (charAt_four ?_ ?_ ?_ ?_ rest).trans ?_⟩
    · omega
    · constructor
      · split <;> omega
      · split <;> omega
    · omega
    · omega
    · have hvalue : (((v / 262144 % 0x08 + 0xF0) % 8 * 64 + (v / 4096 % 0x40 + 0x80) % 64) * 64 +
          (v / 64 % 0x40 + 0x80) % 64) * 64 + (v % 0x40 + 0x80) % 64 = v := by omega
      rw [hvalue]
      rfl

/-- What belongs to the character at hand is passed over. -/
theorem decodeFrom_append (tail : List UInt8) (done : List (Option Char)) (rest : List UInt8) :
    decodeFrom tail.length done (tail ++ rest) = decodeFrom 0 done rest := by
  induction tail with
  | nil => rfl
  | cons b tail ih => exact ih

theorem decodeFrom_flatMap (cs : List Char) (done : List (Option Char)) :
    decodeFrom 0 done (cs.flatMap String.utf8EncodeChar) = done.reverse ++ cs.map some := by
  induction cs generalizing done with
  | nil => simp [decodeFrom]
  | cons c cs ih =>
      obtain ⟨lead, tail, hbytes, hchar⟩ :=
        charAt_utf8EncodeChar c (cs.flatMap String.utf8EncodeChar)
      rw [List.flatMap_cons, hbytes, List.cons_append, decodeFrom, hchar]
      simp only [decodeFrom_append, ih, List.reverse_cons, List.map_cons, List.append_assoc,
        List.singleton_append]

/-- The bytes of a text read back as the text. -/
theorem decode?_encode (text : String) : decode? (encode text) = some text := by
  have hall : (text.toList.map some).all Option.isSome = true := by simp
  have hchars : (text.toList.map some).filterMap id = text.toList := by simp
  rw [decode?, encode_eq, decodeFrom_flatMap, List.reverse_nil, List.nil_append]
  simp only [hall, if_true, hchars, String.ofList_toList]

end PromptWeave.Text
