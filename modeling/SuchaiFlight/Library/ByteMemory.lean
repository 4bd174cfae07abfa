import Mathlib.Data.List.Basic
import Mathlib.Tactic.Common

/-!
Byte-addressed memories and the native layout of 32-bit words. A memory is a
total function from addresses to bytes; bounds belong to the devices built on
it. Reads and writes are the block copies of the C library.
-/
namespace ByteMemory

abbrev Mem := Nat → UInt8

def read (m : Mem) (a n : Nat) : List UInt8 := (List.range n).map fun k => m (a + k)

def write (m : Mem) (a : Nat) (bs : List UInt8) : Mem :=
  fun x => if a ≤ x ∧ x < a + bs.length then bs.getD (x - a) 0 else m x

def fill (m : Mem) (a n : Nat) (b : UInt8) : Mem :=
  fun x => if a ≤ x ∧ x < a + n then b else m x

@[simp] theorem read_length (m : Mem) (a n : Nat) : (read m a n).length = n := by
  simp [read]

theorem read_congr {m m' : Mem} {a n : Nat} (same : ∀ x, a ≤ x → x < a + n → m x = m' x) :
    read m a n = read m' a n := by
  simp only [read, List.map_inj_left, List.mem_range]
  intro k bound
  exact same (a + k) (by omega) (by omega)

theorem read_write_inside (m : Mem) (a k n : Nat) (bs : List UInt8) (bound : k + n ≤ bs.length) :
    read (write m a bs) (a + k) n = (bs.drop k).take n := by
  apply List.ext_getElem
  · simp; omega
  · intro i hi hi'
    simp only [read_length] at hi
    have inside : a ≤ a + k + i ∧ a + k + i < a + bs.length := by omega
    have shift : a + k + i - a = k + i := by omega
    simp only [read, write, List.getElem_map, List.getElem_range, inside, and_self, ↓reduceIte,
      shift, List.getElem_take, List.getElem_drop]
    exact (List.getElem_eq_getD 0).symm

theorem read_write_same (m : Mem) (a : Nat) (bs : List UInt8) :
    read (write m a bs) a bs.length = bs := by
  simpa using read_write_inside m a 0 bs.length bs (by omega)

theorem read_write_disjoint (m : Mem) (a b n : Nat) (bs : List UInt8)
    (apart : a + bs.length ≤ b ∨ b + n ≤ a) : read (write m a bs) b n = read m b n := by
  apply read_congr
  intro x lo hi
  have outside : ¬ (a ≤ x ∧ x < a + bs.length) := by omega
  simp [write, outside]

theorem take_drop_read (m : Mem) (a k n len : Nat) (bound : k + n ≤ len) :
    ((read m a len).drop k).take n = read m (a + k) n := by
  apply List.ext_getElem
  · simp
    omega
  · intro i hi hi'
    simp [read, Nat.add_assoc]

theorem take_drop_flatMap {f : Nat → List UInt8} {w : Nat} (size : ∀ i, (f i).length = w)
    {i n : Nat} (bound : i < n) : (((List.range n).flatMap f).drop (i * w)).take w = f i := by
  induction n with
  | zero => omega
  | succ n ih =>
    have total : ((List.range n).flatMap f).length = n * w := by
      simp [List.length_flatMap, size]
    rw [List.range_succ, List.flatMap_append, List.flatMap_singleton]
    rcases Nat.lt_or_eq_of_le (Nat.le_of_lt_succ bound) with before | last
    · have grow : (i + 1) * w ≤ n * w := Nat.mul_le_mul_right w before
      rw [Nat.add_mul, Nat.one_mul] at grow
      rw [List.drop_append_of_le_length (by omega),
        List.take_append_of_le_length (by rw [List.length_drop]; omega)]
      exact ih before
    · subst last
      rw [← total, List.drop_left, List.take_of_length_le (Nat.le_of_eq (size i))]

inductive Endian where
  | little
  | big
  deriving DecidableEq, Repr

def littleBytes (w : UInt32) : List UInt8 :=
  [UInt8.ofNat w.toNat, UInt8.ofNat (w.toNat / 0x100), UInt8.ofNat (w.toNat / 0x10000),
    UInt8.ofNat (w.toNat / 0x1000000)]

def littleWord : List UInt8 → UInt32
  | [b₀, b₁, b₂, b₃] =>
    UInt32.ofNat (b₀.toNat + 0x100 * b₁.toNat + 0x10000 * b₂.toNat + 0x1000000 * b₃.toNat)
  | _ => 0

def wordBytes : Endian → UInt32 → List UInt8
  | .little, w => littleBytes w
  | .big, w => (littleBytes w).reverse

def bytesWord : Endian → List UInt8 → UInt32
  | .little, bs => littleWord bs
  | .big, bs => littleWord bs.reverse

@[simp] theorem wordBytes_length (e : Endian) (w : UInt32) : (wordBytes e w).length = 4 := by
  cases e <;> simp [wordBytes, littleBytes]

theorem littleWord_littleBytes (w : UInt32) : littleWord (littleBytes w) = w := by
  apply UInt32.toNat_inj.mp
  have bound := w.toNat_lt
  simp only [littleWord, littleBytes, UInt8.toNat_ofNat', UInt32.toNat_ofNat']
  omega

@[simp] theorem bytesWord_wordBytes (e : Endian) (w : UInt32) :
    bytesWord e (wordBytes e w) = w := by
  cases e
  · exact littleWord_littleBytes w
  · simp [bytesWord, wordBytes, littleWord_littleBytes]

theorem littleBytes_littleWord {bs : List UInt8} (size : bs.length = 4) :
    littleBytes (littleWord bs) = bs := by
  match bs, size with
  | [b₀, b₁, b₂, b₃], _ =>
    have h₀ := b₀.toNat_lt
    have h₁ := b₁.toNat_lt
    have h₂ := b₂.toNat_lt
    have h₃ := b₃.toNat_lt
    simp only [littleWord, littleBytes, List.cons.injEq, and_true]
    refine ⟨?_, ?_, ?_, ?_⟩ <;>
    · apply UInt8.toNat_inj.mp
      simp only [UInt8.toNat_ofNat', UInt32.toNat_ofNat']
      omega

theorem wordBytes_bytesWord (e : Endian) {bs : List UInt8} (size : bs.length = 4) :
    wordBytes e (bytesWord e bs) = bs := by
  cases e
  · exact littleBytes_littleWord size
  · simp [bytesWord, wordBytes, littleBytes_littleWord (show bs.reverse.length = 4 by simpa)]

end ByteMemory
