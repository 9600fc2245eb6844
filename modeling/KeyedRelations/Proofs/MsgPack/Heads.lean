import KeyedRelations.MsgPack.Decode
import Mathlib.Data.List.Basic
import Mathlib.Tactic.Ring
import Mathlib.Tactic.SplitIfs

/-!
# Reading what was written

A reader takes bytes for something when it takes them off the front of whatever follows them, and
finds every beginning of them malformed that is not all of them. Readers that run one after the
other take what stands one behind the other. The heads that are written are taken for what they
were written for: whole numbers in each of their widths, doubles, and the sizes of texts, arrays
and maps.
-/

namespace KeyedRelations.MsgPack

variable {α β : Type}

/-- Whether the bytes stand for something to a reader. -/
structure Reader.Takes (read : Reader α) (bytes : Bytes) (x : α) : Prop where
  whole : ∀ rest, read (bytes ++ rest) = .ok (x, rest)
  torn : ∀ n < bytes.length, read (bytes.take n) = .error (.document .malformed)

namespace Reader

theorem takes_pure (x : α) : (pure x : Reader α).Takes [] x where
  whole _ := rfl
  torn _ h := absurd h (Nat.not_lt_zero _)

theorem Takes.bind {read : Reader α} {next : α → Reader β} {a b : Bytes} {x : α} {y : β}
    (hread : read.Takes a x) (hnext : (next x).Takes b y) : (read >>= next).Takes (a ++ b) y where
  whole rest := by
    have hrun : (read >>= next) (a ++ b ++ rest) = next x (b ++ rest) := by
      simp only [Bind.bind, StateT.bind, List.append_assoc, hread.whole, Except.bind]
    rw [hrun, hnext.whole]
  torn n hn := by
    rw [List.take_append]
    by_cases h : n < a.length
    -- The cut is in what the first reader takes, or behind it.
    · have hfail := hread.torn n h
      have hnone : b.take (n - a.length) = [] := by
        rw [Nat.sub_eq_zero_of_le (Nat.le_of_lt h), List.take_zero]
      rw [hnone, List.append_nil]
      simp only [Bind.bind, StateT.bind, hfail, Except.bind]
    · have hall : a.take n = a := List.take_of_length_le (by omega)
      have hrest := hnext.torn (n - a.length) (by simp at hn; omega)
      rw [hall]
      simp only [Bind.bind, StateT.bind, hread.whole, Except.bind, hrest]

theorem Takes.bind_pure {read : Reader α} {next : α → Reader β} {bytes : Bytes} {x : α} {y : β}
    (hread : read.Takes bytes x) (hnext : next x = pure y) : (read >>= next).Takes bytes y := by
  have hpure : (next x).Takes [] y := by
    rw [hnext]
    exact takes_pure y
  have hbind := hread.bind hpure
  rwa [List.append_nil] at hbind

theorem Takes.map {read : Reader α} {bytes : Bytes} {x : α} (hread : read.Takes bytes x)
    (f : α → β) : Takes (do return f (← read)) bytes (f x) :=
  hread.bind_pure rfl

theorem takes_byte (b : UInt8) : byte.Takes [b] b.toNat where
  whole _ := rfl
  torn n hn := by
    obtain rfl : n = 0 := by simpa using hn
    rfl

theorem takes_take (data : Bytes) : (take data.length).Takes data data where
  whole rest := by
    unfold take
    rw [List.take_left, List.drop_left, if_pos rfl]
  torn n hn := by
    unfold take
    rw [if_neg]
    simp only [List.length_take]
    omega

end Reader

/-! ## Numbers -/

theorem length_bigEndian (width n : Nat) : (bigEndian width n).length = width := by
  induction width with
  | zero => rfl
  | succ width ih => rw [bigEndian, List.length_cons, ih]

theorem twoTo_succ_byte (width : Nat) : twoTo (8 * (width + 1)) = twoTo (8 * width) * 256 := by
  exact pow_add 2 (8 * width) 8

theorem foldl_bigEndian (width n start : Nat) :
    (bigEndian width n).foldl (fun n b => 256 * n + b.toNat) start =
      start * twoTo (8 * width) + n % twoTo (8 * width) := by
  induction width generalizing start with
  | zero => simp [bigEndian, twoTo, Nat.mod_one]
  | succ width ih =>
    have hbyte : (UInt8.ofNat (n / twoTo (8 * width) % 256)).toNat =
        n / twoTo (8 * width) % 256 := by
      rw [UInt8.toNat_ofNat']
      exact Nat.mod_mod _ _
    rw [bigEndian, List.foldl_cons, ih, hbyte, twoTo_succ_byte, Nat.mod_mul]
    ring

theorem ofBigEndian_bigEndian {width n : Nat} (hn : n < twoTo (8 * width)) :
    ofBigEndian (bigEndian width n) = n := by
  unfold ofBigEndian
  rw [foldl_bigEndian, Nat.zero_mul, Nat.zero_add, Nat.mod_eq_of_lt hn]

theorem ofTwosComplement_negative {width : Nat} {n : Int}
    (hlow : -((twoTo (8 * width) / 2 : Nat) : Int) ≤ n) (hn : n < 0) :
    ofTwosComplement width (n + twoTo (8 * width)).toNat = n := by
  unfold ofTwosComplement
  generalize twoTo (8 * width) = size at hlow ⊢
  rw [if_neg (by omega)]
  omega

namespace Reader

theorem takes_number {width n : Nat} (hn : n < twoTo (8 * width)) :
    (number width).Takes (bigEndian width n) n := by
  have htake := takes_take (bigEndian width n)
  rw [length_bigEndian] at htake
  have hmap := htake.map ofBigEndian
  rwa [ofBigEndian_bigEndian hn] at hmap

theorem takes_signed {width : Nat} {n : Int}
    (hlow : -((twoTo (8 * width) / 2 : Nat) : Int) ≤ n) (hn : n < 0) :
    (signed width).Takes (bigEndian width (n + twoTo (8 * width)).toNat) n := by
  have hnumber : (n + twoTo (8 * width)).toNat < twoTo (8 * width) := by omega
  have hmap := (takes_number hnumber).map (ofTwosComplement width)
  rwa [ofTwosComplement_negative hlow hn] at hmap

/-! ## Heads -/

theorem takes_head {b : UInt8} {more : Bytes} {x : Head} (h : (headOf b.toNat).Takes more x) :
    head.Takes (b :: more) x := (takes_byte b).bind h

theorem takes_lead {code : Nat} {more : Bytes} {x : Head} (hcode : code < 0x100)
    (h : (headOf code).Takes more x) : head.Takes (UInt8.ofNat code :: more) x := by
  apply takes_head
  rwa [UInt8.toNat_ofNat', Nat.mod_eq_of_lt hcode]

theorem takes_null : head.Takes [0xc0] .null := takes_head (takes_pure Head.null)

theorem takes_bool (b : Bool) : head.Takes [if b then 0xc3 else 0xc2] (.bool b) := by
  cases b
  · exact takes_head (takes_pure (Head.bool false))
  · exact takes_head (takes_pure (Head.bool true))

theorem headOf_int {m : Nat} (hm : m < 0x80) : headOf m = return .int m := if_pos hm

theorem headOf_map {n : Nat} (hn : n < 0x10) : headOf (0x80 + n) = return .map n := by
  unfold headOf
  rw [if_neg (by omega), if_pos (by omega), Nat.add_sub_cancel_left]

theorem headOf_array {n : Nat} (hn : n < 0x10) : headOf (0x90 + n) = return .array n := by
  unfold headOf
  rw [if_neg (by omega), if_neg (by omega), if_pos (by omega), Nat.add_sub_cancel_left]

theorem headOf_text {n : Nat} (hn : n < 0x20) :
    headOf (0xa0 + n) = do return .text (← take n) := by
  unfold headOf
  rw [if_neg (by omega), if_neg (by omega), if_neg (by omega), if_pos (by omega),
    Nat.add_sub_cancel_left]

theorem headOf_negative {m : Nat} (hm : 0xe0 ≤ m) :
    headOf m = return .int ((m : Int) - 0x100) := by
  unfold headOf
  rw [if_neg (by omega), if_neg (by omega), if_neg (by omega), if_neg (by omega), if_pos hm]

/-- Whether a lead byte is one of a text. -/
def IsTextLead (code : Nat) : Prop := (0xa0 ≤ code ∧ code < 0xc0) ∨ (0xd9 ≤ code ∧ code ≤ 0xdb)

theorem exists_textLead {data : Bytes} (hdata : data.length < 0x100000000) :
    ∃ code more, textHead data.length = UInt8.ofNat code :: more ∧ code < 0x100 ∧
      IsTextLead code ∧ (headOf code).Takes (more ++ data) (.text data) := by
  have hsized : ∀ {width : Nat}, data.length < twoTo (8 * width) →
      Takes (do return Head.text (← take (← number width)))
        (bigEndian width data.length ++ data) (.text data) := by
    intro width hwidth
    exact (takes_number hwidth).bind ((takes_take data).map Head.text)
  unfold textHead
  split_ifs with hfixed hbyte hword
  · refine ⟨0xa0 + data.length, [], rfl, by omega, .inl ⟨by omega, by omega⟩, ?_⟩
    rw [headOf_text hfixed]
    exact (takes_take data).map Head.text
  · exact ⟨0xd9, _, rfl, by decide, .inr (by decide), hsized hbyte⟩
  · exact ⟨0xda, _, rfl, by decide, .inr (by decide), hsized hword⟩
  · exact ⟨0xdb, _, rfl, by decide, .inr (by decide), hsized hdata⟩

theorem takes_textHead {data : Bytes} (hdata : data.length < 0x100000000) :
    head.Takes (textHead data.length ++ data) (.text data) := by
  obtain ⟨code, more, heq, hcode, -, htakes⟩ := exists_textLead hdata
  rw [heq]
  exact takes_lead hcode htakes

theorem takes_fieldName {data : Bytes} (hdata : data.length < 0x100000000) :
    fieldName.Takes (textHead data.length ++ data) data := by
  obtain ⟨code, more, heq, hcode, hlead, htakes⟩ := exists_textLead hdata
  have hbyte := takes_byte (UInt8.ofNat code)
  rw [UInt8.toNat_ofNat', Nat.mod_eq_of_lt hcode] at hbyte
  rw [heq]
  refine hbyte.bind ?_
  unfold IsTextLead at hlead
  rw [if_pos hlead]
  exact htakes.bind_pure rfl

theorem takes_bytesHead {data : Bytes} (hdata : data.length < 0x100000000) :
    head.Takes (bytesHead data.length ++ data) (.bytes data) := by
  have hsized : ∀ {width : Nat}, data.length < twoTo (8 * width) →
      Takes (do return Head.bytes (← take (← number width)))
        (bigEndian width data.length ++ data) (.bytes data) := by
    intro width hwidth
    exact (takes_number hwidth).bind ((takes_take data).map Head.bytes)
  unfold bytesHead
  split_ifs with hbyte hword
  · exact takes_lead (by decide) (hsized hbyte)
  · exact takes_lead (by decide) (hsized hword)
  · exact takes_lead (by decide) (hsized hdata)

theorem takes_arrayHead {n : Nat} (hn : n < 0x100000000) :
    head.Takes (arrayHead n) (.array n) := by
  unfold arrayHead
  split_ifs with hfixed hword
  · apply takes_lead (by omega)
    rw [headOf_array hfixed]
    exact takes_pure _
  · exact takes_lead (by decide) ((takes_number hword).map Head.array)
  · exact takes_lead (by decide) ((takes_number hn).map Head.array)

theorem takes_mapHead {n : Nat} (hn : n < 0x100000000) : head.Takes (mapHead n) (.map n) := by
  unfold mapHead
  split_ifs with hfixed hword
  · apply takes_lead (by omega)
    rw [headOf_map hfixed]
    exact takes_pure _
  · exact takes_lead (by decide) ((takes_number hword).map Head.map)
  · exact takes_lead (by decide) ((takes_number hn).map Head.map)

theorem takes_double (x : Double) : head.Takes (lead 0xcb 8 x.bits.toNat) (.float x) := by
  have hbits : x.bits.toNat < twoTo (8 * 8) := x.bits.toNat_lt
  have hback : Double.ofBits x.bits.toNat = x := by
    unfold Double.ofBits
    rw [UInt64.ofNat_toNat]
  have hread := (takes_number hbits).map fun n => Head.float (Double.ofBits n)
  rw [hback] at hread
  exact takes_lead (by decide) hread

/-- A negative number in two's complement. -/
theorem takes_leadSigned {code width : Nat} {n : Int} (hcode : code < 0x100)
    (hhead : headOf code = do return .int (← signed width))
    (hlow : -((twoTo (8 * width) / 2 : Nat) : Int) ≤ n) (hn : n < 0) :
    head.Takes (lead code width (n + twoTo (8 * width)).toNat) (.int n) := by
  apply takes_lead hcode
  rw [hhead]
  exact (takes_signed hlow hn).map Head.int

theorem takes_encodeInt {n : Int} {bytes : Bytes} (h : encodeInt n = .ok bytes) :
    head.Takes bytes (.int n) := by
  unfold encodeInt at h
  by_cases hsign : 0 ≤ n
  · rw [if_pos hsign] at h
    obtain ⟨m, rfl⟩ := Int.eq_ofNat_of_zero_le hsign
    dsimp only [Int.toNat_natCast] at h
    have hint := fun width (hm : m < twoTo (8 * width)) =>
      (takes_number hm).map fun n => Head.int n
    split_ifs at h with h7 h8 h16 h32 h64 <;> cases h
    · apply takes_lead (by omega)
      rw [headOf_int h7]
      exact takes_pure _
    · exact takes_lead (by decide) (hint 1 h8)
    · exact takes_lead (by decide) (hint 2 h16)
    · exact takes_lead (by decide) (hint 4 h32)
    · exact takes_lead (by decide) (hint 8 h64)
  · rw [if_neg hsign] at h
    have hn : n < 0 := by omega
    split_ifs at h with h5 h8 h16 h32 h64 <;> cases h
    · have hlead : ((n + 0x100).toNat : Int) - 0x100 = n := by omega
      apply takes_lead (by omega)
      rw [headOf_negative (by omega), hlead]
      exact takes_pure _
    · exact takes_leadSigned (by decide) rfl h8 hn
    · exact takes_leadSigned (by decide) rfl h16 hn
    · exact takes_leadSigned (by decide) rfl h32 hn
    · exact takes_leadSigned (by decide) rfl h64 hn

end Reader

end KeyedRelations.MsgPack
