import Mathlib.Tactic

/-! # Fixed-width codecs

A codec lays values of one type out in a fixed number of bytes, and every string of that many
bytes is the layout of exactly one value. Codecs of the parts of a record give one of the
record, the parts standing one after the other without padding. -/

structure Codec (α : Type*) where
  width : ℕ
  encode : α → List UInt8
  decode : List UInt8 → α
  length_encode : ∀ a, (encode a).length = width
  decode_encode : ∀ a, decode (encode a) = a
  encode_decode : ∀ bs, bs.length = width → encode (decode bs) = bs

namespace Codec

variable {α β : Type*}

/-! ## Numbers -/

/-- The lowest `n` bytes of a number, the lowest first. -/
def littleEndian : ℕ → ℕ → List UInt8
  | 0, _ => []
  | n + 1, v => UInt8.ofNat v :: littleEndian n (v / 256)

/-- The number that some bytes, the lowest first, stand for. -/
def value : List UInt8 → ℕ
  | [] => 0
  | b :: bs => b.toNat + 256 * value bs

theorem littleEndian_length (n v : ℕ) : (littleEndian n v).length = n := by
  induction n generalizing v with
  | zero => rfl
  | succ n ih => rw [littleEndian, List.length_cons, ih]

theorem value_lt (bs : List UInt8) : value bs < 256 ^ bs.length := by
  induction bs with
  | nil => exact Nat.one_pos
  | cons b bs ih =>
      have hb : b.toNat < 256 := b.toNat_lt
      rw [value, List.length_cons, pow_succ]
      omega

theorem value_littleEndian (n v : ℕ) : value (littleEndian n v) = v % 256 ^ n := by
  induction n generalizing v with
  | zero => rw [littleEndian, value, pow_zero, Nat.mod_one]
  | succ n ih =>
      have hb : (UInt8.ofNat v).toNat = v % 256 := UInt8.toNat_ofNat'
      rw [littleEndian, value, ih, hb, pow_succ', Nat.mod_mul]

theorem littleEndian_value (bs : List UInt8) : littleEndian bs.length (value bs) = bs := by
  induction bs with
  | nil => rfl
  | cons b bs ih =>
      have hb : b.toNat < 256 := b.toNat_lt
      have hlow : UInt8.ofNat (b.toNat + 256 * value bs) = b := by
        apply UInt8.toNat_inj.mp
        rw [UInt8.toNat_ofNat']
        omega
      have hhigh : (b.toNat + 256 * value bs) / 256 = value bs := by omega
      rw [List.length_cons, value, littleEndian, hlow, hhigh, ih]

/-- A machine word of `n` bytes. -/
def word (n : ℕ) : Codec (BitVec (8 * n)) where
  width := n
  encode v := littleEndian n v.toNat
  decode bs := BitVec.ofNat (8 * n) (value bs)
  length_encode v := littleEndian_length n v.toNat
  decode_encode v := by
    have hpow : 256 ^ n = 2 ^ (8 * n) := by
      rw [pow_mul]
      norm_num
    rw [value_littleEndian, hpow, Nat.mod_eq_of_lt v.isLt, BitVec.ofNat_toNat,
      BitVec.setWidth_eq]
  encode_decode bs hbs := by
    have hlt : value bs < 2 ^ (8 * n) := by
      rw [pow_mul, ← hbs]
      exact value_lt bs
    rw [BitVec.toNat_ofNat, Nat.mod_eq_of_lt hlt, ← hbs, littleEndian_value]

/-! ## Arrays and records -/

/-- An array of `n` bytes. -/
def array (n : ℕ) : Codec (Vector UInt8 n) where
  width := n
  encode v := v.toList
  decode bs := Vector.ofFn fun i => bs.getD i 0
  length_encode v := v.length_toList
  decode_encode v := by
    ext i hi
    simp [List.getD]
  encode_decode bs hbs := by
    apply List.ext_getElem
    · rw [Vector.length_toList, hbs]
    · intro i hi hi'
      simp [List.getD, hi']

/-- Two values, the second right behind the first. -/
def pair (ca : Codec α) (cb : Codec β) : Codec (α × β) where
  width := ca.width + cb.width
  encode p := ca.encode p.1 ++ cb.encode p.2
  decode bs := (ca.decode (bs.take ca.width), cb.decode (bs.drop ca.width))
  length_encode p := by rw [List.length_append, ca.length_encode, cb.length_encode]
  decode_encode p := by
    rw [List.take_left' (ca.length_encode p.1), List.drop_left' (ca.length_encode p.1),
      ca.decode_encode, cb.decode_encode]
  encode_decode bs hbs := by
    rw [ca.encode_decode _ (by rw [List.length_take]; omega),
      cb.encode_decode _ (by rw [List.length_drop]; omega), List.take_append_drop]

/-- The same layout for another type. -/
def map (ca : Codec α) (e : α ≃ β) : Codec β where
  width := ca.width
  encode b := ca.encode (e.symm b)
  decode bs := e (ca.decode bs)
  length_encode b := ca.length_encode (e.symm b)
  decode_encode b := by rw [ca.decode_encode, Equiv.apply_symm_apply]
  encode_decode bs hbs := by rw [Equiv.symm_apply_apply, ca.encode_decode bs hbs]

theorem encode_injective (c : Codec α) : Function.Injective c.encode :=
  Function.LeftInverse.injective c.decode_encode

/-! ## Streams

Values laid out one after the other, as they pass over a stream of bytes that knows no
boundaries between them. -/

/-- The bytes of some values. -/
def stream (c : Codec α) (as : List α) : List UInt8 := as.flatMap c.encode

theorem stream_nil (c : Codec α) : c.stream [] = [] := rfl

theorem stream_append (c : Codec α) (as bs : List α) :
    c.stream (as ++ bs) = c.stream as ++ c.stream bs := List.flatMap_append

theorem stream_concat (c : Codec α) (as : List α) (a : α) :
    c.stream (as ++ [a]) = c.stream as ++ c.encode a := by
  rw [stream_append, stream, stream, List.flatMap_singleton]

theorem length_stream (c : Codec α) (as : List α) :
    (c.stream as).length = as.length * c.width := by
  induction as with
  | nil => rw [stream_nil, List.length_nil, List.length_nil, Nat.zero_mul]
  | cons a as ih =>
      rw [stream, List.flatMap_cons, List.length_append, c.length_encode, ← stream, ih,
        List.length_cons]
      ring

/-- Values whose bytes begin a stream of values begin the list of these values. -/
theorem prefix_of_stream (c : Codec α) (hwidth : 0 < c.width) {as bs : List α}
    {rest : List UInt8} (h : c.stream as ++ rest = c.stream bs) :
    ∃ later, as ++ later = bs ∧ rest = c.stream later := by
  induction as generalizing bs with
  | nil => exact ⟨bs, rfl, h⟩
  | cons a as ih =>
      cases bs with
      | nil =>
          have hlength := congrArg List.length h
          rw [List.length_append, length_stream, stream_nil, List.length_nil,
            List.length_cons] at hlength
          have hpos : 0 < (as.length + 1) * c.width := Nat.mul_pos (Nat.succ_pos _) hwidth
          omega
      | cons b bs =>
          rw [stream, stream, List.flatMap_cons, List.flatMap_cons, List.append_assoc] at h
          have hsplit := List.append_inj h (by rw [c.length_encode, c.length_encode])
          obtain ⟨later, hlater, hrest⟩ := ih hsplit.2
          refine ⟨later, ?_, hrest⟩
          rw [c.encode_injective hsplit.1, List.cons_append, hlater]

end Codec
