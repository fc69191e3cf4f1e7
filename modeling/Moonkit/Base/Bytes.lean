import Mathlib.Tactic.SplitIfs
import Mathlib.Data.List.Basic
import Mathlib.Algebra.Group.Nat.Even

/-!
# Byte arrays of a fixed length

Two ways to read an array of `n` bytes off a byte string: `fromSlice` wants exactly `n` bytes,
`decode` reads the first `n` and leaves the rest. They agree where `fromSlice` succeeds. Numbers are
written with a fixed number of bytes, the lowest first or the highest first.
-/

namespace Bytes

/-- The byte string as an array, if its length is `n`. -/
def fromSlice (n : ℕ) (data : List UInt8) : Option (Vector UInt8 n) :=
  if h : data.length = n then some ⟨data.toArray, by simpa using h⟩ else none

/-- The first `n` bytes as an array, if there are as many. -/
def decode (n : ℕ) (data : List UInt8) : Option (Vector UInt8 n) := fromSlice n (data.take n)

def encode {n : ℕ} (a : Vector UInt8 n) : List UInt8 := a.toList

variable {n : ℕ} {data : List UInt8} {a : Vector UInt8 n}

theorem fromSlice_eq_some : fromSlice n data = some a ↔ data = encode a := by
  unfold fromSlice encode
  split_ifs with h
  · simp only [Option.some.injEq]
    refine ⟨fun ha => by rw [← ha]; simp [Vector.toList], fun ha => ?_⟩
    subst ha
    simp [Vector.toList]
  · simp only [false_iff]
    rintro rfl
    exact h (by simp)

@[simp] theorem fromSlice_encode (a : Vector UInt8 n) : fromSlice n (encode a) = some a :=
  fromSlice_eq_some.2 rfl

@[simp] theorem length_encode (a : Vector UInt8 n) : (encode a).length = n := by simp [encode]

theorem encode_injective : Function.Injective (encode : Vector UInt8 n → List UInt8) :=
  fun _ _ => Vector.toList_inj.1

theorem decode_append (a : Vector UInt8 n) (rest : List UInt8) :
    decode n (encode a ++ rest) = some a := by
  unfold decode
  rw [List.take_left' (length_encode a), fromSlice_encode]

@[simp] theorem decode_encode (a : Vector UInt8 n) : decode n (encode a) = some a := by
  simpa using decode_append a []

theorem exists_encode (h : data.length = n) : ∃ a : Vector UInt8 n, data = encode a :=
  ⟨⟨data.toArray, by simpa using h⟩, by simp [encode, Vector.toList]⟩

section Numbers

/-- The number with these bytes, the lowest first. -/
def ofLe : List UInt8 → ℕ
  | [] => 0
  | b :: bs => b.toNat + 256 * ofLe bs

/-- The lowest `w` bytes of a number, the lowest first. -/
def toLe : ℕ → ℕ → List UInt8
  | 0, _ => []
  | w + 1, m => UInt8.ofNat m :: toLe w (m / 256)

/-- The lowest `w` bytes of a number, the highest first. -/
def toBe (w m : ℕ) : List UInt8 := (toLe w m).reverse

@[simp] theorem length_toLe : ∀ w m, (toLe w m).length = w
  | 0, _ => rfl
  | w + 1, m => by simp [toLe, length_toLe w]

@[simp] theorem length_toBe (w m : ℕ) : (toBe w m).length = w := by simp [toBe]

theorem ofLe_lt : ∀ bs : List UInt8, ofLe bs < 256 ^ bs.length
  | [] => by simp [ofLe]
  | b :: bs => by
    have hb := b.toNat_lt
    have hbs := ofLe_lt bs
    rw [ofLe, List.length_cons, pow_succ]
    omega

theorem ofLe_toLe : ∀ {w m : ℕ}, m < 256 ^ w → ofLe (toLe w m) = m
  | 0, m, h => by
    rw [pow_zero] at h
    rw [toLe, ofLe]
    omega
  | w + 1, m, h => by
    have hdiv : m / 256 < 256 ^ w := by
      rw [pow_succ] at h
      omega
    rw [toLe, ofLe, ofLe_toLe hdiv, UInt8.toNat_ofNat']
    omega

theorem toBe_inj {w m n : ℕ} (hm : m < 256 ^ w) (hn : n < 256 ^ w) (h : toBe w m = toBe w n) :
    m = n := by
  have hle : toLe w m = toLe w n := List.reverse_injective h
  rw [← ofLe_toLe hm, hle, ofLe_toLe hn]

end Numbers

end Bytes
