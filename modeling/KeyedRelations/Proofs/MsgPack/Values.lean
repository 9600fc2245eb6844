import KeyedRelations.Proofs.MsgPack.Writing

/-!
# Reading values of any type

Plain values are read back as what they are, with their kinds and with all bits of their doubles;
only a mark is not written. A reader that is given a number of levels stops at a value with more,
whatever follows it.
-/

namespace KeyedRelations

open MsgPack

namespace Value

mutual

/-- The value without marks. -/
def unmarked : Value → Value
  | .nan x _ => .float x
  | .list items => .list (unmarkedAll items)
  | .tuple items => .tuple (unmarkedAll items)
  | .dict entries => .dict (unmarkedEntries entries)
  | .key values => .key (unmarkedAll values)
  | v => v

def unmarkedAll : List Value → List Value
  | [] => []
  | v :: vs => v.unmarked :: unmarkedAll vs

def unmarkedEntries : List (Value × Value) → List (Value × Value)
  | [] => []
  | (k, v) :: rest => (k.unmarked, v.unmarked) :: unmarkedEntries rest

end

theorem unmarkedAll_eq_map (vs : List Value) : unmarkedAll vs = vs.map unmarked := by
  induction vs with
  | nil => rfl
  | cons v vs ih => rw [unmarkedAll, ih, List.map_cons]

theorem Scalar.unmarked {v : Value} (hv : v.Scalar) : v.unmarked.Scalar := by
  cases hv with
  | nan x _ => exact .float x
  | null => exact .null
  | bool b => exact .bool b
  | int n => exact .int n
  | float x => exact .float x
  | text hs => exact .text hs
  | bytes hlength => exact .bytes hlength

theorem Scalar.same_unmarked {a b : Value} (ha : a.Scalar) (hb : b.Scalar) :
    same a.unmarked b.unmarked = same a b := by
  cases ha <;> cases hb <;> rfl

theorem Scalar.unhashableKind?_eq_none {v : Value} (hv : v.Scalar) : v.unhashableKind? = none := by
  cases hv <;> rfl

theorem setEntry_of_new {k v : Value} {done : List (Value × Value)}
    (h : ∀ e ∈ done, same e.1 k = false) : setEntry k v done = done ++ [(k, v)] := by
  induction done with
  | nil => rfl
  | cons e done ih =>
    rw [List.forall_mem_cons] at h
    obtain ⟨k', v'⟩ := e
    rw [setEntry, if_neg (by simpa using h.1), ih h.2, List.cons_append]

end Value

namespace MsgPack

open Reader

theorem takes_scalar {v : Value} {bytes : Bytes} {room : Nat} (hv : v.Scalar)
    (h : encode room v = .ok bytes) (levels : Nat) (isKey : Bool) : (valueWithin (levels + 1) isKey).Takes bytes v.unmarked := by
  cases hv with
  | null =>
    cases h
    exact takes_null.bind_pure rfl
  | bool b =>
    cases b <;> cases h
    · exact (takes_bool false).bind_pure rfl
    · exact (takes_bool true).bind_pure rfl
  | int n => exact (takes_encodeInt h).bind_pure rfl
  | float x =>
    cases h
    exact (takes_double x).bind_pure rfl
  | nan x mark =>
    cases h
    exact (takes_double x).bind_pure rfl
  | @text s hs =>
    rw [encode_text hs] at h
    cases h
    refine (takes_textHead hs).bind_pure ?_
    dsimp only
    rw [utf8_textBytes]
    rfl
  | bytes hlength =>
    rw [encode, checkLength_eq_ok.2 hlength] at h
    cases h
    exact (takes_bytesHead hlength).bind_pure rfl

theorem stands_scalar {v : Value} (hv : v.Scalar) (levels : Nat) (isKey : Bool) :
    Stands (levels < v.levels) v (valueWithin levels isKey) v.unmarked := by
  intro room bytes h
  rw [hv.levels_eq]
  cases levels with
  | zero => exact .stopped Nat.one_pos fun _ => rfl
  | succ levels => exact .whole (by omega) (takes_scalar hv h levels isKey)

/-- Entries are read behind those that are done, from all of whose keys theirs have to differ. -/
theorem reads_entries {room levels : Nat} {es done : List (Value × Value)} {bytes : Bytes}
    (hkeys : ∀ e ∈ es, e.1.Scalar)
    (hdistinct : es.Pairwise fun a b => Value.same a.1 b.1 = false)
    (hvalues : ∀ e ∈ es, Stands (levels < e.2.levels) e.2 (valueWithin levels false) e.2.unmarked)
    (hdone : ∀ d ∈ done, ∀ e ∈ es, Value.same d.1 e.1.unmarked = false)
    (h : encodeEntries room es = .ok bytes) :
    Reads (levels < Value.levelsIn es)
      (entries (valueWithin levels true) (valueWithin levels false) es.length done) bytes
      (done ++ Value.unmarkedEntries es) := by
  induction es generalizing done bytes with
  | nil =>
    cases h
    rw [Value.unmarkedEntries, List.append_nil]
    exact (takes_pure done).reads.congr (by simp [Value.levelsIn])
  | cons entry es ih =>
    obtain ⟨k, v⟩ := entry
    rw [List.forall_mem_cons] at hkeys hvalues
    rw [List.pairwise_cons] at hdistinct
    obtain ⟨_, key, value, rest, hkey, hvalue, hrest, rfl⟩ := exists_of_encodeEntries_cons h
    -- No key so far is equal to this one, so its entry goes to the end.
    have hnew : Value.setEntry k.unmarked v.unmarked done = done ++ [(k.unmarked, v.unmarked)] :=
      Value.setEntry_of_new fun d hd => hdone d hd _ List.mem_cons_self
    have hothers : ∀ d ∈ done ++ [(k.unmarked, v.unmarked)], ∀ e ∈ es,
        Value.same d.1 e.1.unmarked = false := by
      intro d hd e he
      rcases List.mem_append.1 hd with hd | hd
      · exact hdone d hd e (List.mem_cons_of_mem _ he)
      · obtain rfl := List.mem_singleton.1 hd
        rw [hkeys.1.same_unmarked (hkeys.2 e he)]
        exact hdistinct.1 e he
    have hrest := ih hkeys.2 hdistinct.2 hvalues.2 hothers hrest
    rw [List.append_assoc] at hrest
    rw [List.append_assoc]
    have hdeep : (levels < k.levels ∨ levels < v.levels ∨ levels < Value.levelsIn es) ↔
        levels < Value.levelsIn ((k, v) :: es) := by
      simp only [Value.levelsIn, lt_max_iff, or_assoc]
    refine Reads.congr hdeep ((stands_scalar hkeys.1 levels true _ _ hkey).bind
      ((hvalues.1 _ _ hvalue).bind ?_))
    have hhashable := hkeys.1.unmarked.unhashableKind?_eq_none
    dsimp only
    rw [hhashable, if_neg (by simp), hnew]
    exact hrest

/-- A plain value is read back without its marks, unless it has too many levels. -/
theorem stands_value {v : Value} (hv : v.Plain) (levels : Nat) :
    Stands (levels < v.levels) v (valueWithin levels false) v.unmarked := by
  induction hv generalizing levels with
  | scalar hv => exact stands_scalar hv levels false
  | @list items hlength _ ih =>
    intro room bytes h
    rw [encode] at h
    obtain ⟨-, rest, hrest, rfl⟩ := exists_of_sized h
    -- Without a level left the reader stops before the head; else one level is for the list itself.
    cases levels with
    | zero => exact .stopped (Nat.succ_pos _) fun _ => rfl
    | succ levels =>
      rw [← List.map_id items] at hrest
      have hitems := reads_many (fun v hv => ih v hv levels) hrest
      rw [← Value.unmarkedAll_eq_map] at hitems
      refine ((takes_arrayHead hlength).bind_reads (hitems.map Value.list)).congr ?_
      simp only [Value.levels, Nat.add_lt_add_iff_right, Value.lt_levelsAll_iff]
  | dict hlength hkeys hdistinct _ ih =>
    intro room bytes h
    rw [encode] at h
    obtain ⟨-, rest, hrest, rfl⟩ := exists_of_sized h
    cases levels with
    | zero => exact .stopped (Nat.succ_pos _) fun _ => rfl
    | succ levels =>
      have hentries := reads_entries hkeys hdistinct (fun e he => ih e he levels)
        (fun d hd => absurd hd List.not_mem_nil) hrest
      refine ((takes_mapHead hlength).bind_reads (hentries.map Value.dict)).congr ?_
      simp only [Value.levels, Nat.add_lt_add_iff_right]

end MsgPack

end KeyedRelations
