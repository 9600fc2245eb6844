import KeyedRelations.Proofs.MsgPack.Documents

/-!
# What can be written

The values that documents are made of are scalars, and lists, tuples and dictionaries of them. Where
no length is too large for its head, two things can stand in the way of writing such a value: an
integer below -2 ^ 63 or above 2 ^ 64 - 1, wherever in the value it is, and more levels than there is
room for. Of the two the one further left is reported.
-/

namespace KeyedRelations

open MsgPack

/-- Whether no form of a document can hold an integer. -/
def Wide (n : Int) : Prop := n < -0x8000000000000000 ∨ 0x10000000000000000 ≤ n

instance (n : Int) : Decidable (Wide n) := inferInstanceAs (Decidable (_ ∨ _))

namespace Value

/-- Values without parts. -/
inductive Scalar : Value → Prop
  | null : Scalar .null
  | bool (b) : Scalar (.bool b)
  | int (n) : Scalar (.int n)
  | float (x) : Scalar (.float x)
  | nan (x mark) : Scalar (.nan x mark)
  | text {s} (hs : ShortText s) : Scalar (.text s)
  | bytes {data} (hlength : data.length < 0x100000000) : Scalar (.bytes data)

/-- Values that are read back as what they are: scalars, and lists and dictionaries of them to any
depth. The keys of a dictionary are scalars, and no two of them are equal. -/
inductive Plain : Value → Prop
  | scalar {v} (hv : v.Scalar) : Plain v
  | list {items} (hlength : items.length < 0x100000000) (hitems : ∀ v ∈ items, v.Plain) :
      Plain (.list items)
  | dict {entries} (hlength : entries.length < 0x100000000) (hkeys : ∀ e ∈ entries, e.1.Scalar)
      (hdistinct : entries.Pairwise fun a b => same a.1 b.1 = false)
      (hvalues : ∀ e ∈ entries, e.2.Plain) : Plain (.dict entries)

/-- Values that documents are made of. -/
inductive Writable : Value → Prop
  | scalar {v} (hv : v.Scalar) : Writable v
  | list {items} (hlength : items.length < 0x100000000) (hitems : ∀ v ∈ items, v.Writable) :
      Writable (.list items)
  | tuple {items} (hlength : items.length < 0x100000000) (hitems : ∀ v ∈ items, v.Writable) :
      Writable (.tuple items)
  | dict {entries} (hlength : entries.length < 0x100000000) (hkeys : ∀ e ∈ entries, e.1.Scalar)
      (hvalues : ∀ e ∈ entries, e.2.Writable) : Writable (.dict entries)

theorem Plain.writable {v : Value} (hv : v.Plain) : v.Writable := by
  induction hv with
  | scalar hv => exact .scalar hv
  | list hlength _ ih => exact .list hlength ih
  | dict hlength hkeys _ _ ih => exact .dict hlength hkeys ih

/-- Whether an integer inside a value is too wide. -/
def Overflows (v : Value) : Prop := ∃ n ∈ v.integers, Wide n

mutual

/-- The number of levels of a value: one for what has no parts, and one more than among the
parts of anything else. -/
def levels : Value → Nat
  | .list items | .tuple items | .key items => levelsAll items + 1
  | .dict entries => levelsIn entries + 1
  | _ => 1

/-- The most levels of a value among several. -/
def levelsAll : List Value → Nat
  | [] => 0
  | v :: vs => max v.levels (levelsAll vs)

def levelsIn : List (Value × Value) → Nat
  | [] => 0
  | (k, v) :: rest => max (max k.levels v.levels) (levelsIn rest)

end

theorem levels_pos (v : Value) : 0 < v.levels := by
  cases v <;> simp [levels]

theorem lt_levelsAll_iff {vs : List Value} {n : Nat} :
    n < levelsAll vs ↔ ∃ v ∈ vs, n < v.levels := by
  induction vs with
  | nil => simp [levelsAll]
  | cons v vs ih => simp [levelsAll, ih]

theorem Scalar.levels_eq {v : Value} (hv : v.Scalar) : v.levels = 1 := by
  cases hv <;> rfl

end Value

namespace MsgPack

/-- What comes of writing: all is written, an integer is refused because it is too wide, or there is
no room for the parts of an array or a map. -/
inductive Written (wide deep : Prop) : Except Fault Bytes → Prop
  | done {bytes} (hwide : ¬wide) (hdeep : ¬deep) : Written wide deep (.ok bytes)
  | refused (h : wide) : Written wide deep (.error .integerWidth)
  | stopped (h : deep) : Written wide deep (.error .depth)

variable {p q d e : Prop} {first : Except Fault Bytes} {next : Bytes → Except Fault Bytes}

theorem Written.congr (hwide : p ↔ q) (hdeep : d ↔ e) (hfirst : Written p d first) :
    Written q e first := by
  rwa [← propext hwide, ← propext hdeep]

theorem Written.bind (hfirst : Written p d first) (hnext : ∀ bytes, Written q e (next bytes)) :
    Written (p ∨ q) (d ∨ e) (first >>= next) := by
  cases hfirst with
  | @done bytes hp hd =>
    have hwide : q ↔ p ∨ q := ⟨.inr, fun h => h.resolve_left hp⟩
    have hdeep : e ↔ d ∨ e := ⟨.inr, fun h => h.resolve_left hd⟩
    exact (hnext bytes).congr hwide hdeep
  | refused hp => exact .refused (.inl hp)
  | stopped hd => exact .stopped (.inl hd)

theorem Written.map (hfirst : Written p d first) (f : Bytes → Bytes) :
    Written p d (do return f (← first)) := by
  have hdone : ∀ bytes, Written False False (pure (f bytes)) := fun bytes =>
    .done not_false not_false
  exact (hfirst.bind hdone).congr (iff_of_eq (or_false p)) (iff_of_eq (or_false d))

theorem Written.error_iff (hfirst : Written p d first) (hd : ¬d) :
    first = .error .integerWidth ↔ p := by
  cases hfirst with
  | done hp _ => simp [hp]
  | refused hp => simp [hp]
  | stopped h => exact absurd h hd

theorem Written.exists_ok (hfirst : Written p d first) (hp : ¬p) (hd : ¬d) :
    ∃ bytes, first = .ok bytes := by
  cases hfirst with
  | @done bytes _ _ => exact ⟨bytes, rfl⟩
  | refused h => exact absurd h hp
  | stopped h => exact absurd h hd

theorem Written.eq_depth (hfirst : Written p d first) (hp : ¬p) (hd : d) :
    first = .error .depth := by
  cases hfirst with
  | done _ hshallow => exact absurd hd hshallow
  | refused h => exact absurd h hp
  | stopped _ => rfl

theorem written_encodeInt (n : Int) : Written (Wide n) False (encodeInt n) := by
  unfold encodeInt Wide
  dsimp only
  split_ifs
  all_goals first
    | exact .done (by omega) not_false
    | exact .refused (by omega)

open Value (integersAll integersIn levelsAll levelsIn)

theorem written_scalar {v : Value} (hv : v.Scalar) (levels : Nat) :
    Written v.Overflows (levels + 1 < v.levels) (encode levels v) := by
  have hflat : False ↔ levels + 1 < v.levels := by
    rw [hv.levels_eq]
    simp
  -- Only integers are inside of scalars, so all other scalars are written.
  have hnone : ∀ w : Value, w.integers = [] → ¬w.Overflows := by
    rintro w hw ⟨n, hn, -⟩
    rw [hw] at hn
    exact List.not_mem_nil hn
  refine Written.congr Iff.rfl hflat ?_
  cases hv with
  | null => exact .done (hnone _ rfl) not_false
  | bool b => cases b <;> exact .done (hnone _ rfl) not_false
  | int n =>
    have hint : Wide n ↔ (Value.int n).Overflows := by simp [Value.Overflows, Value.integers]
    exact (written_encodeInt n).congr hint Iff.rfl
  | float x => exact .done (hnone _ rfl) not_false
  | nan x mark => exact .done (hnone _ rfl) not_false
  | text hs =>
    rw [encode_text hs]
    exact .done (hnone _ rfl) not_false
  | bytes hlength =>
    rw [encode, checkLength_eq_ok.2 hlength]
    exact .done (hnone _ rfl) not_false

theorem written_all {vs : List Value}
    (h : ∀ v ∈ vs, ∀ levels, Written v.Overflows (levels + 1 < v.levels) (encode levels v))
    (levels : Nat) :
    Written (∃ n ∈ integersAll vs, Wide n) (levels < levelsAll vs) (encodeAll levels vs) := by
  induction vs with
  | nil => exact .done (by simp [integersAll]) (by simp [levelsAll])
  | cons v vs ih =>
    rw [List.forall_mem_cons] at h
    cases levels with
    | zero => exact .stopped (lt_max_of_lt_left v.levels_pos)
    | succ below =>
      refine ((h.1 below).bind fun bytes => (ih h.2).map (bytes ++ ·)).congr ?_ ?_
      · simp only [Value.Overflows, integersAll, List.mem_append, or_and_right, exists_or]
      · simp only [levelsAll, lt_max_iff]

theorem written_entries {entries : List (Value × Value)} (hkeys : ∀ e ∈ entries, e.1.Scalar)
    (hvalues : ∀ e ∈ entries, ∀ levels,
      Written e.2.Overflows (levels + 1 < e.2.levels) (encode levels e.2)) (levels : Nat) :
    Written (∃ n ∈ integersIn entries, Wide n) (levels < levelsIn entries)
      (encodeEntries levels entries) := by
  induction entries with
  | nil => exact .done (by simp [integersIn]) (by simp [levelsIn])
  | cons entry rest ih =>
    obtain ⟨k, v⟩ := entry
    rw [List.forall_mem_cons] at hkeys hvalues
    cases levels with
    | zero => exact .stopped (lt_max_of_lt_left (lt_max_of_lt_left k.levels_pos))
    | succ below =>
      have hrest := ih hkeys.2 hvalues.2
      refine ((written_scalar hkeys.1 below).bind fun key => (hvalues.1 below).bind fun value =>
        hrest.map (key ++ value ++ ·)).congr ?_ ?_
      · simp only [Value.Overflows, integersIn, List.mem_append, or_and_right, exists_or]
      · simp only [levelsIn, lt_max_iff, or_assoc]

/-- A value is written unless an integer inside it is too wide or there is no room for its levels. -/
theorem written_encode {v : Value} (hv : v.Writable) (levels : Nat) :
    Written v.Overflows (levels + 1 < v.levels) (encode levels v) := by
  induction hv generalizing levels with
  | scalar hv => exact written_scalar hv levels
  | list hlength _ ih =>
    rw [encode, checkLength_eq_ok.2 hlength]
    exact ((written_all ih levels).map _).congr Iff.rfl (by simp [Value.levels])
  | tuple hlength _ ih =>
    rw [encode, checkLength_eq_ok.2 hlength]
    exact ((written_all ih levels).map _).congr Iff.rfl (by simp [Value.levels])
  | dict hlength hkeys _ ih =>
    rw [encode, checkLength_eq_ok.2 hlength]
    exact ((written_entries hkeys ih levels).map _).congr Iff.rfl (by simp [Value.levels])

end MsgPack

end KeyedRelations
