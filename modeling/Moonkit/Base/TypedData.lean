import Moonkit.Base.Bytes
import Moonkit.Base.Uint

/-!
# Hashed typed data

A message of fixed-width arguments is hashed, and its digest is an argument of another message. The
hash function has no collisions, which no function into the strings of a fixed length is: digests
are values of a type of their own, and a string holds bytes and digests, a digest in place of its
bytes. Arguments of the same kinds are read off their encoding, so a digest says what was hashed
(`signingDigest_inj`).
-/

/-- A byte of a string, or a digest in it. -/
inductive HashSymbol (D : Type) where
  | byte (b : UInt8)
  | digest (d : D)

/-- A hash function without collisions. -/
structure Hasher (D : Type) where
  hash : List (HashSymbol D) → D
  injective : Function.Injective hash

/-- Digests of which nothing is known but what was hashed. -/
inductive FreeDigest where
  | of (l : List (HashSymbol FreeDigest))

def Hasher.free : Hasher FreeDigest := ⟨.of, fun _ _ => FreeDigest.of.inj⟩

namespace TypedData

variable {D : Type}

/-- A string of bytes. -/
def ofBytes (l : List UInt8) : List (HashSymbol D) := l.map .byte

/-- The bytes of a text. -/
def ofString (s : String) : List (HashSymbol D) := ofBytes s.toUTF8.toList

inductive Arg (D : Type) where
  | uint (n : Uint (2 ^ 256 - 1))
  | address (a : Vector UInt8 20)
  | digest (d : D)

inductive Kind where
  | uint
  | address
  | digest

namespace Arg

def kind : Arg D → Kind
  | uint _ => .uint
  | address _ => .address
  | digest _ => .digest

/-- A word of 32 bytes: a number with its highest byte first, an address after 12 zeros. -/
def encode : Arg D → List (HashSymbol D)
  | uint n => ofBytes (Bytes.toBe 32 n.val)
  | address a => ofBytes (List.replicate 12 0 ++ Bytes.encode a)
  | digest d => [.digest d]

end Arg

def encodeArguments (args : List (Arg D)) : List (HashSymbol D) := args.flatMap Arg.encode

theorem ofBytes_injective : Function.Injective (ofBytes : List UInt8 → List (HashSymbol D)) :=
  List.map_injective_iff.2 fun _ _ => HashSymbol.byte.inj

namespace Arg

theorem length_encode {a b : Arg D} (h : a.kind = b.kind) : a.encode.length = b.encode.length := by
  cases a <;> cases b <;> simp [kind] at h <;> simp [encode, ofBytes]

theorem encode_inj {a b : Arg D} (hk : a.kind = b.kind) (h : a.encode = b.encode) : a = b := by
  cases a with
  | uint n =>
    cases b with
    | uint m =>
      have hbytes : Bytes.toBe 32 n.val = Bytes.toBe 32 m.val := ofBytes_injective h
      have hfits : ∀ k : Uint (2 ^ 256 - 1), k.val < 256 ^ 32 := by
        intro k
        have hlt : k.val < 2 ^ 256 := Nat.lt_of_le_of_lt k.le_max (by decide)
        exact lt_of_lt_of_eq hlt (by decide)
      rw [Uint.ext_val (Bytes.toBe_inj (hfits n) (hfits m) hbytes)]
    | _ => simp [kind] at hk
  | address x =>
    cases b with
    | address y =>
      have hbytes := List.append_cancel_left (ofBytes_injective h)
      rw [Bytes.encode_injective hbytes]
    | _ => simp [kind] at hk
  | digest d =>
    cases b with
    | digest e =>
      simp only [encode, List.cons.injEq, HashSymbol.digest.injEq, and_true] at h
      rw [h]
    | _ => simp [kind] at hk

end Arg

theorem encodeArguments_inj : ∀ {l l' : List (Arg D)}, l.map Arg.kind = l'.map Arg.kind →
    encodeArguments l = encodeArguments l' → l = l'
  | [], [], _, _ => rfl
  | [], _ :: _, hk, _ => by simp at hk
  | _ :: _, [], hk, _ => by simp at hk
  | a :: l, b :: l', hk, h => by
    simp only [List.map_cons, List.cons.injEq] at hk
    simp only [encodeArguments, List.flatMap_cons] at h
    obtain ⟨ha, hl⟩ := List.append_inj h (Arg.length_encode hk.1)
    rw [Arg.encode_inj hk.1 ha, encodeArguments_inj hk.2 hl]

section Digest

variable (H : Hasher D)

/-- The digest of a list of arguments. -/
def argsDigest (args : List (Arg D)) : D := H.hash (encodeArguments args)

/-- The digest that is signed for a message in a domain, from the digests of both. -/
def signingDigest (domain message : D) : D :=
  H.hash (ofBytes [0x19, 0x01] ++ [.digest domain, .digest message])

variable {H}

theorem argsDigest_inj {l l' : List (Arg D)} (hk : l.map Arg.kind = l'.map Arg.kind)
    (h : argsDigest H l = argsDigest H l') : l = l' := encodeArguments_inj hk (H.injective h)

theorem signingDigest_inj {d d' m m' : D} (h : signingDigest H d m = signingDigest H d' m') :
    d = d' ∧ m = m' := by
  have hpair := List.append_cancel_left (H.injective h)
  simpa using hpair

end Digest

end TypedData
