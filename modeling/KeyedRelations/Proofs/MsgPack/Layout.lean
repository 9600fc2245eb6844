import KeyedRelations.Proofs.MsgPack.Writing

/-!
# The layout of documents

The format has several forms for most sizes and integers. A document uses the shortest one: sizes
stand in the lead byte or behind it, whole numbers too, and negative numbers in the lead byte or in
two's complement. A double always takes eight bytes. Lists and dictionaries have their parts behind
their size, in order, and a dictionary each value behind its key.
-/

namespace KeyedRelations.MsgPack

/-- Whether the bytes are of a form, and none of the form are shorter. -/
def Shortest (form : Bytes → Prop) (bytes : Bytes) : Prop :=
  form bytes ∧ ∀ other, form other → bytes.length ≤ other.length

/-! ## Sizes -/

/-- The lead bytes of numbers of one meaning: those that hold the number themselves, as many as
`fixed` from `base` on, and those with a number of some width behind them. -/
structure Leads where
  base : Nat
  fixed : Nat
  widths : List (Nat × Nat)

namespace Leads

def text : Leads := ⟨0xa0, 0x20, [(0xd9, 1), (0xda, 2), (0xdb, 4)]⟩

def bytes : Leads := ⟨0xc4, 0, [(0xc4, 1), (0xc5, 2), (0xc6, 4)]⟩

def array : Leads := ⟨0x90, 0x10, [(0xdc, 2), (0xdd, 4)]⟩

def map : Leads := ⟨0x80, 0x10, [(0xde, 2), (0xdf, 4)]⟩

def whole : Leads := ⟨0, 0x80, [(0xcc, 1), (0xcd, 2), (0xce, 4), (0xcf, 8)]⟩

/-- The forms of a number. -/
inductive Form (leads : Leads) (n : Nat) : Bytes → Prop
  | fixed (h : n < leads.fixed) : Form leads n [UInt8.ofNat (leads.base + n)]
  | wide {code width} (hcode : (code, width) ∈ leads.widths) (h : n < twoTo (8 * width)) :
      Form leads n (lead code width n)

variable {leads : Leads} {n : Nat}

theorem Form.length_pos {bytes : Bytes} (h : leads.Form n bytes) : 0 < bytes.length := by
  cases h with
  | fixed _ => exact Nat.one_pos
  | wide _ _ => exact Nat.succ_pos _

theorem shortest_fixed (h : n < leads.fixed) :
    Shortest (leads.Form n) [UInt8.ofNat (leads.base + n)] :=
  ⟨.fixed h, fun _ hother => hother.length_pos⟩

/-- A number behind a lead byte is in its shortest form if it is in no lead byte and too large for
every smaller width. -/
theorem shortest_wide {code width : Nat} (hcode : (code, width) ∈ leads.widths)
    (h : n < twoTo (8 * width)) (hfixed : leads.fixed ≤ n)
    (hwidths : ∀ w ∈ leads.widths, w.2 < width → twoTo (8 * w.2) ≤ n) :
    Shortest (leads.Form n) (lead code width n) := by
  refine ⟨.wide hcode h, fun other hother => ?_⟩
  cases hother with
  | fixed hlt => exact absurd hlt (Nat.not_lt.2 hfixed)
  | @wide code' width' hcode' hlt =>
    have hwidth : width ≤ width' := by
      by_contra hless
      have hle := hwidths _ hcode' (Nat.lt_of_not_le hless)
      exact absurd hlt (Nat.not_lt.2 hle)
    simpa [lead, length_bigEndian] using hwidth

end Leads

theorem shortest_textHead {n : Nat} (hn : n < 0x100000000) :
    Shortest (Leads.text.Form n) (textHead n) := by
  unfold textHead
  split_ifs with hfixed hbyte hword
  · exact Leads.shortest_fixed hfixed
  all_goals
    refine Leads.shortest_wide (by decide) ‹_› (Nat.not_lt.1 hfixed) ?_
    simp [Leads.text, twoTo] <;> omega

theorem shortest_bytesHead {n : Nat} (hn : n < 0x100000000) :
    Shortest (Leads.bytes.Form n) (bytesHead n) := by
  unfold bytesHead
  split_ifs with hbyte hword
  all_goals
    refine Leads.shortest_wide (by decide) ‹_› n.zero_le ?_
    simp [Leads.bytes, twoTo] <;> omega

theorem shortest_arrayHead {n : Nat} (hn : n < 0x100000000) :
    Shortest (Leads.array.Form n) (arrayHead n) := by
  unfold arrayHead
  split_ifs with hfixed hword
  · exact Leads.shortest_fixed hfixed
  all_goals
    refine Leads.shortest_wide (by decide) ‹_› (Nat.not_lt.1 hfixed) ?_
    simp [Leads.array, twoTo] <;> omega

theorem shortest_mapHead {n : Nat} (hn : n < 0x100000000) :
    Shortest (Leads.map.Form n) (mapHead n) := by
  unfold mapHead
  split_ifs with hfixed hword
  · exact Leads.shortest_fixed hfixed
  all_goals
    refine Leads.shortest_wide (by decide) ‹_› (Nat.not_lt.1 hfixed) ?_
    simp [Leads.map, twoTo] <;> omega

/-! ## Integers -/

/-- The lead bytes of integers in two's complement, with the widths. -/
def signedWidths : List (Nat × Nat) := [(0xd0, 1), (0xd1, 2), (0xd2, 4), (0xd3, 8)]

/-- The forms of an integer with a sign: in the lead byte down to -0x20, and in two's complement. -/
inductive SignedForm (n : Int) : Bytes → Prop
  | fixed (hlow : -0x20 ≤ n) (hn : n < 0) : SignedForm n [UInt8.ofNat (n + 0x100).toNat]
  | wide {code width} (hcode : (code, width) ∈ signedWidths)
      (hlow : -((twoTo (8 * width) / 2 : Nat) : Int) ≤ n)
      (hhigh : n < (twoTo (8 * width) / 2 : Nat)) :
      SignedForm n (lead code width (n % twoTo (8 * width)).toNat)

/-- The forms of an integer. -/
inductive IntForm (n : Int) (bytes : Bytes) : Prop
  | whole {m : Nat} (hn : n = m) (h : Leads.whole.Form m bytes)
  | signed (h : SignedForm n bytes)

/-- How an integer is written: in the shortest form, and as a whole number if it is one. -/
structure IntLayout (n : Int) (bytes : Bytes) : Prop where
  shortest : Shortest (IntForm n) bytes
  whole : 0 ≤ n → Leads.whole.Form n.toNat bytes

theorem SignedForm.length_pos {n : Int} {bytes : Bytes} (h : SignedForm n bytes) :
    0 < bytes.length := by
  cases h with
  | fixed _ _ => exact Nat.one_pos
  | wide _ _ _ => exact Nat.succ_pos _

/-- A whole number is no longer without a sign than with one. -/
theorem SignedForm.exists_whole {m : Nat} {bytes : Bytes} (h : SignedForm m bytes) :
    ∃ other, Leads.whole.Form m other ∧ other.length = bytes.length := by
  cases h with
  | fixed _ hn => omega
  | @wide code width hcode _ hhigh =>
    have hfit : m < twoTo (8 * width) := by omega
    have hwhole : ∃ code', (code', width) ∈ Leads.whole.widths := by
      simp only [signedWidths, List.mem_cons, Prod.mk.injEq, List.not_mem_nil, or_false] at hcode
      rcases hcode with ⟨-, rfl⟩ | ⟨-, rfl⟩ | ⟨-, rfl⟩ | ⟨-, rfl⟩
      · exact ⟨0xcc, by decide⟩
      · exact ⟨0xcd, by decide⟩
      · exact ⟨0xce, by decide⟩
      · exact ⟨0xcf, by decide⟩
    obtain ⟨code', hcode'⟩ := hwhole
    exact ⟨_, .wide hcode' hfit, by simp [lead, length_bigEndian]⟩

theorem intLayout_whole {m : Nat} {bytes : Bytes} (h : Shortest (Leads.whole.Form m) bytes) :
    IntLayout m bytes where
  shortest := by
    refine ⟨.whole rfl h.1, fun other hother => ?_⟩
    cases hother with
    | whole hn hform =>
      obtain rfl := Int.ofNat.inj hn
      exact h.2 other hform
    | signed hsigned =>
      obtain ⟨unsigned, hunsigned, hlength⟩ := hsigned.exists_whole
      exact hlength ▸ h.2 unsigned hunsigned
  whole _ := h.1

theorem intLayout_negative {n : Int} {bytes : Bytes} (hn : n < 0)
    (h : Shortest (SignedForm n) bytes) : IntLayout n bytes where
  shortest := by
    refine ⟨.signed h.1, fun other hother => ?_⟩
    cases hother with
    | whole hm _ => omega
    | signed hsigned => exact h.2 other hsigned
  whole h := absurd hn (Int.not_lt.2 h)

theorem shortest_signed {n : Int} {code width : Nat} (hcode : (code, width) ∈ signedWidths)
    (hn : n < -0x20) (hlow : -((twoTo (8 * width) / 2 : Nat) : Int) ≤ n)
    (hwidths : ∀ w ∈ signedWidths, w.2 < width → n < -((twoTo (8 * w.2) / 2 : Nat) : Int)) :
    Shortest (SignedForm n) (lead code width (n + twoTo (8 * width)).toNat) := by
  have hmod : n % twoTo (8 * width) = n + twoTo (8 * width) := by
    rw [← Int.add_emod_right]
    exact Int.emod_eq_of_lt (by omega) (by omega)
  rw [← hmod]
  refine ⟨.wide hcode hlow (by omega), fun other hother => ?_⟩
  cases hother with
  | fixed hlow' _ => omega
  | @wide code' width' hcode' hlow' _ =>
    have hwidth : width ≤ width' := by
      by_contra hless
      have hlt := hwidths _ hcode' (Nat.lt_of_not_le hless)
      exact absurd hlow' (Int.not_le.2 hlt)
    simpa [lead, length_bigEndian] using hwidth

theorem intLayout_of_encodeInt {n : Int} {bytes : Bytes} (h : encodeInt n = .ok bytes) :
    IntLayout n bytes := by
  unfold encodeInt at h
  by_cases hsign : 0 ≤ n
  · rw [if_pos hsign] at h
    obtain ⟨m, rfl⟩ := Int.eq_ofNat_of_zero_le hsign
    dsimp only [Int.toNat_natCast] at h
    apply intLayout_whole
    split_ifs at h with h7 h8 h16 h32 h64 <;> cases h
    · have hfixed : m < Leads.whole.fixed := h7
      simpa [Leads.whole] using Leads.shortest_fixed hfixed
    all_goals
      refine Leads.shortest_wide (by decide) ‹_› (Nat.not_lt.1 h7) ?_
      simp [Leads.whole, twoTo] <;> omega
  · rw [if_neg hsign] at h
    have hn : n < 0 := by omega
    -- No whole number is negative, so the forms with a sign are all there are.
    apply intLayout_negative hn
    split_ifs at h with h5 h8 h16 h32 h64 <;> cases h
    · exact ⟨.fixed h5 hn, fun other hother => hother.length_pos⟩
    all_goals
      refine shortest_signed (by decide) (by omega) ‹_› ?_
      simp [signedWidths, twoTo] <;> omega

/-! ## Values -/

/-- The layout of a value. -/
inductive Layout : Value → Bytes → Prop
  | null : Layout .null [0xc0]
  | bool (b) : Layout (.bool b) [if b then 0xc3 else 0xc2]
  | int {n bytes} (h : IntLayout n bytes) : Layout (.int n) bytes
  | float (x) : Layout (.float x) (lead 0xcb 8 x.bits.toNat)
  | nan (x mark) : Layout (.nan x mark) (lead 0xcb 8 x.bits.toNat)
  | text {s head} (hhead : Shortest (Leads.text.Form (textBytes s).length) head) :
      Layout (.text s) (head ++ textBytes s)
  | bytes {data head} (hhead : Shortest (Leads.bytes.Form data.length) head) :
      Layout (.bytes data) (head ++ data)
  | list {items head parts} (hhead : Shortest (Leads.array.Form items.length) head)
      (hitems : List.Forall₂ Layout items parts) : Layout (.list items) (head ++ parts.flatten)
  | tuple {items head parts} (hhead : Shortest (Leads.array.Form items.length) head)
      (hitems : List.Forall₂ Layout items parts) : Layout (.tuple items) (head ++ parts.flatten)
  | dict {entries head parts} (hhead : Shortest (Leads.map.Form entries.length) head)
      (hentries : List.Forall₂ Layout (entries.flatMap fun e => [e.1, e.2]) parts) :
      Layout (.dict entries) (head ++ parts.flatten)

variable {levels : Nat}

theorem layout_scalar {v : Value} {bytes : Bytes} (hv : v.Scalar)
    (h : encode levels v = .ok bytes) : Layout v bytes := by
  cases hv with
  | null =>
    cases h
    exact .null
  | bool b =>
    cases b <;> cases h
    · exact .bool false
    · exact .bool true
  | int n => exact .int (intLayout_of_encodeInt h)
  | float x =>
    cases h
    exact .float x
  | nan x mark =>
    cases h
    exact .nan x mark
  | text hs =>
    rw [encode_text hs] at h
    cases h
    exact .text (shortest_textHead hs)
  | bytes hlength =>
    rw [encode, checkLength_eq_ok.2 hlength] at h
    cases h
    exact .bytes (shortest_bytesHead hlength)

theorem layout_all {vs : List Value} {bytes : Bytes}
    (hvs : ∀ v ∈ vs, ∀ {levels bytes}, encode levels v = .ok bytes → Layout v bytes)
    (h : encodeAll levels vs = .ok bytes) :
    ∃ parts, List.Forall₂ Layout vs parts ∧ bytes = parts.flatten := by
  induction vs generalizing bytes with
  | nil =>
    cases h
    exact ⟨[], .nil, rfl⟩
  | cons v vs ih =>
    rw [List.forall_mem_cons] at hvs
    obtain ⟨_, first, rest, hfirst, hrest, rfl⟩ := exists_of_encodeAll_cons h
    obtain ⟨parts, hparts, rfl⟩ := ih hvs.2 hrest
    exact ⟨first :: parts, .cons (hvs.1 hfirst) hparts, rfl⟩

theorem layout_entries {entries : List (Value × Value)} {bytes : Bytes}
    (hkeys : ∀ e ∈ entries, e.1.Scalar)
    (hvalues : ∀ e ∈ entries, ∀ {levels bytes}, encode levels e.2 = .ok bytes → Layout e.2 bytes)
    (h : encodeEntries levels entries = .ok bytes) :
    ∃ parts, List.Forall₂ Layout (entries.flatMap fun e => [e.1, e.2]) parts ∧
      bytes = parts.flatten := by
  induction entries generalizing bytes with
  | nil =>
    cases h
    exact ⟨[], .nil, rfl⟩
  | cons entry entries ih =>
    obtain ⟨k, v⟩ := entry
    rw [List.forall_mem_cons] at hkeys hvalues
    obtain ⟨_, key, value, rest, hkey, hvalue, hrest, rfl⟩ := exists_of_encodeEntries_cons h
    obtain ⟨parts, hparts, rfl⟩ := ih hkeys.2 hvalues.2 hrest
    refine ⟨key :: value :: parts, ?_, by simp⟩
    exact .cons (layout_scalar hkeys.1 hkey) (.cons (hvalues.1 hvalue) hparts)

/-- What is written has its layout. -/
theorem layout_encode {v : Value} {bytes : Bytes} (hv : v.Writable)
    (h : encode levels v = .ok bytes) : Layout v bytes := by
  induction hv generalizing levels bytes with
  | scalar hv => exact layout_scalar hv h
  | list hlength _ ih =>
    rw [encode] at h
    obtain ⟨-, rest, hrest, rfl⟩ := exists_of_sized h
    obtain ⟨parts, hparts, rfl⟩ := layout_all ih hrest
    exact .list (shortest_arrayHead hlength) hparts
  | tuple hlength _ ih =>
    rw [encode] at h
    obtain ⟨-, rest, hrest, rfl⟩ := exists_of_sized h
    obtain ⟨parts, hparts, rfl⟩ := layout_all ih hrest
    exact .tuple (shortest_arrayHead hlength) hparts
  | dict hlength hkeys _ ih =>
    rw [encode] at h
    obtain ⟨-, rest, hrest, rfl⟩ := exists_of_sized h
    obtain ⟨parts, hparts, rfl⟩ := layout_entries hkeys ih hrest
    exact .dict (shortest_mapHead hlength) hparts

end KeyedRelations.MsgPack
