import SuchaiFlight.Library.ByteMemory

/-!
Half words and words in the two byte orders, and buffers that are converted word
by word, as `htonl` is applied to an array.
-/
namespace ByteOrder
open ByteMemory

def littleHalf : List UInt8 → UInt16
  | [b₀, b₁] => UInt16.ofNat (b₀.toNat + 0x100 * b₁.toNat)
  | _ => 0

def bytesHalf : Endian → List UInt8 → UInt16
  | .little, bs => littleHalf bs
  | .big, bs => littleHalf bs.reverse

def halfBytes : Endian → UInt16 → List UInt8
  | .little, w => [UInt8.ofNat w.toNat, UInt8.ofNat (w.toNat / 0x100)]
  | .big, w => [UInt8.ofNat (w.toNat / 0x100), UInt8.ofNat w.toNat]

def swap16 (w : UInt16) : UInt16 := bytesHalf .big (halfBytes .little w)

def swap32 (w : UInt32) : UInt32 := bytesWord .big (wordBytes .little w)

@[simp] theorem halfBytes_length (e : Endian) (w : UInt16) : (halfBytes e w).length = 2 := by
  cases e <;> rfl

theorem bytesHalf_halfBytes (e : Endian) (w : UInt16) : bytesHalf e (halfBytes e w) = w := by
  apply UInt16.toNat_inj.mp
  have bound := w.toNat_lt
  cases e with
  | little =>
    simp only [bytesHalf, halfBytes, littleHalf, UInt8.toNat_ofNat', UInt16.toNat_ofNat']
    omega
  | big =>
    simp only [bytesHalf, halfBytes, List.reverse_cons, List.reverse_nil, List.nil_append,
      List.cons_append, littleHalf, UInt8.toNat_ofNat', UInt16.toNat_ofNat']
    omega

def mapWords (e : Endian) (f : UInt32 → UInt32) : List UInt8 → List UInt8
  | b₀ :: b₁ :: b₂ :: b₃ :: rest =>
    wordBytes e (f (bytesWord e [b₀, b₁, b₂, b₃])) ++ mapWords e f rest
  | _ => []

def reverseWords : List UInt8 → List UInt8
  | b₀ :: b₁ :: b₂ :: b₃ :: rest => b₃ :: b₂ :: b₁ :: b₀ :: reverseWords rest
  | _ => []

theorem words_induction {motive : (data : List UInt8) → 4 ∣ data.length → Prop}
    (nil : ∀ whole, motive [] whole)
    (word : ∀ b₀ b₁ b₂ b₃ rest less whole, motive rest less →
      motive (b₀ :: b₁ :: b₂ :: b₃ :: rest) whole)
    (data : List UInt8) (whole : 4 ∣ data.length) : motive data whole := by
  match data with
  | [] => exact nil whole
  | [_] | [_, _] | [_, _, _] => exact absurd whole (by simp)
  | b₀ :: b₁ :: b₂ :: b₃ :: rest =>
    have less : 4 ∣ rest.length := by
      simp only [List.length_cons] at whole
      omega
    exact word b₀ b₁ b₂ b₃ rest less whole (words_induction nil word rest less)

theorem mapWords_length (e : Endian) (f : UInt32 → UInt32) {data : List UInt8}
    (whole : 4 ∣ data.length) : (mapWords e f data).length = data.length := by
  induction data, whole using words_induction with
  | nil _ => rfl
  | word b₀ b₁ b₂ b₃ rest _ _ ih =>
    simp only [mapWords, List.length_append, wordBytes_length, ih, List.length_cons]
    omega

theorem mapWords_wordBytes (e : Endian) (f : UInt32 → UInt32) (w : UInt32) (rest : List UInt8) :
    mapWords e f (wordBytes e w ++ rest) = wordBytes e (f w) ++ mapWords e f rest := by
  have again := bytesWord_wordBytes e w
  match bytes : wordBytes e w, wordBytes_length e w with
  | [b₀, b₁, b₂, b₃], _ =>
    rw [bytes] at again
    simp only [List.cons_append, List.nil_append, mapWords, again]

theorem mapWords_inverse (e : Endian) {f g : UInt32 → UInt32} (inverse : ∀ w, g (f w) = w)
    {data : List UInt8} (whole : 4 ∣ data.length) :
    mapWords e g (mapWords e f data) = data := by
  induction data, whole using words_induction with
  | nil _ => rfl
  | word b₀ b₁ b₂ b₃ rest _ _ ih =>
    rw [mapWords, mapWords_wordBytes, inverse, ih, wordBytes_bytesWord e rfl]
    rfl

theorem mapWords_id (e : Endian) {data : List UInt8} (whole : 4 ∣ data.length) :
    mapWords e id data = data := by
  induction data, whole using words_induction with
  | nil _ => rfl
  | word b₀ b₁ b₂ b₃ rest _ _ ih =>
    rw [mapWords, id, ih, wordBytes_bytesWord e rfl]
    rfl

theorem mapWords_swap32 {data : List UInt8} (whole : 4 ∣ data.length) :
    mapWords .little swap32 data = reverseWords data := by
  induction data, whole using words_induction with
  | nil _ => rfl
  | word b₀ b₁ b₂ b₃ rest _ _ ih =>
    have bytes : wordBytes .little (swap32 (bytesWord .little [b₀, b₁, b₂, b₃])) =
        [b₃, b₂, b₁, b₀] := by
      rw [swap32, wordBytes_bytesWord .little rfl]
      exact littleBytes_littleWord rfl
    rw [mapWords, bytes, ih]
    rfl

theorem reverseWords_length {data : List UInt8} (whole : 4 ∣ data.length) :
    (reverseWords data).length = data.length := by
  induction data, whole using words_induction with
  | nil _ => rfl
  | word b₀ b₁ b₂ b₃ rest _ _ ih => simp [reverseWords, ih]

theorem reverseWords_drop {data : List UInt8} (whole : 4 ∣ data.length) (n : Nat) :
    (reverseWords data).drop (4 * n) = reverseWords (data.drop (4 * n)) := by
  induction data, whole using words_induction generalizing n with
  | nil _ => simp [reverseWords]
  | word b₀ b₁ b₂ b₃ rest _ _ ih =>
    cases n with
    | zero => rfl
    | succ n =>
      rw [Nat.mul_succ]
      exact ih n

theorem reverseWords_take {data : List UInt8} (whole : 4 ∣ data.length) (n : Nat) :
    (reverseWords data).take (4 * n) = reverseWords (data.take (4 * n)) := by
  induction data, whole using words_induction generalizing n with
  | nil _ => simp [reverseWords]
  | word b₀ b₁ b₂ b₃ rest _ _ ih =>
    cases n with
    | zero => rfl
    | succ n =>
      rw [Nat.mul_succ]
      simp only [reverseWords, List.take_succ_cons, ih n]

theorem swap32_swap32 (w : UInt32) : swap32 (swap32 w) = w := by
  have size : (wordBytes .little w).reverse.length = 4 := by simp
  have bytes : wordBytes .little (swap32 w) = (wordBytes .little w).reverse :=
    littleBytes_littleWord size
  show bytesWord .big (wordBytes .little (swap32 w)) = w
  rw [bytes]
  simp only [bytesWord, List.reverse_reverse]
  exact littleWord_littleBytes w

theorem halfBytes_littleHalf {bs : List UInt8} (size : bs.length = 2) :
    halfBytes .little (littleHalf bs) = bs := by
  match bs, size with
  | [b₀, b₁], _ =>
    have h₀ := b₀.toNat_lt
    have h₁ := b₁.toNat_lt
    simp only [littleHalf, halfBytes, List.cons.injEq, and_true]
    constructor
    · apply UInt8.toNat_inj.mp
      simp only [UInt8.toNat_ofNat', UInt16.toNat_ofNat']
      omega
    · apply UInt8.toNat_inj.mp
      simp only [UInt8.toNat_ofNat', UInt16.toNat_ofNat']
      omega

theorem halfBytes_bytesHalf (e : Endian) {bs : List UInt8} (size : bs.length = 2) :
    halfBytes e (bytesHalf e bs) = bs := by
  cases e with
  | little => exact halfBytes_littleHalf size
  | big =>
    have reversed : halfBytes .little (littleHalf bs.reverse) = bs.reverse :=
      halfBytes_littleHalf (by rw [List.length_reverse, size])
    show (halfBytes .little (littleHalf bs.reverse)).reverse = bs
    rw [reversed, List.reverse_reverse]

theorem swap16_swap16 (w : UInt16) : swap16 (swap16 w) = w := by
  have size : (halfBytes .little w).reverse.length = 2 := by simp
  have bytes : halfBytes .little (swap16 w) = (halfBytes .little w).reverse :=
    halfBytes_littleHalf size
  show bytesHalf .big (halfBytes .little (swap16 w)) = w
  rw [bytes]
  exact bytesHalf_halfBytes .little w

end ByteOrder
