import KeyedRelations.Record
import Mathlib.Tactic.SplitIfs

/-!
# Why documents are refused

Whatever the bytes are, a reader refuses them because they are malformed or do not fit the record,
hold a text that is not UTF-8, have too many levels, or name an instant that is out of reach. So no
other fault comes out of a document.
-/

namespace KeyedRelations

/-- The faults of binary documents. -/
inductive Fault.OfDocument : Fault → Prop
  | document (cause : DocumentFault) : OfDocument (.document cause)
  | nesting : OfDocument .nesting
  | farYear (year : Int) : OfDocument (.farYear year)

namespace MsgPack.Reader

variable {α β σ : Type}

/-- Whether a reader blames the document for whatever it refuses. -/
def Blames (read : Reader α) : Prop := ∀ bytes fault, read bytes = .error fault → fault.OfDocument

/-! ## Rules -/

theorem blames_pure (x : α) : Blames (pure x : Reader α) := fun _ _ h => nomatch h

theorem blames_throw {fault : Fault} (hfault : fault.OfDocument) :
    Blames (throw fault : Reader α) := by
  intro bytes other h
  cases h
  exact hfault

theorem Blames.bind {read : Reader α} {next : α → Reader β} (hread : Blames read)
    (hnext : ∀ x, Blames (next x)) : Blames (read >>= next) := by
  intro bytes fault h
  simp only [Bind.bind, StateT.bind, Except.bind] at h
  cases hfirst : read bytes with
  | error first =>
    rw [hfirst] at h
    cases h
    exact hread bytes _ hfirst
  | ok taken =>
    rw [hfirst] at h
    exact hnext taken.1 taken.2 fault h

theorem Blames.map {read : Reader α} (hread : Blames read) (f : α → β) :
    Blames (do return f (← read)) :=
  hread.bind fun x => blames_pure (f x)

theorem blames_malformed : Blames (malformed : Reader α) := blames_throw (.document _)

theorem blames_illTyped : Blames (illTyped : Reader α) := blames_throw (.document _)

theorem blames_many {read : Reader α} (hread : Blames read) (n : Nat) : Blames (many read n) := by
  induction n with
  | zero => exact blames_pure []
  | succ n ih => exact hread.bind fun x => ih.map (x :: ·)

/-! ## Heads -/

theorem blames_byte : Blames byte := by
  intro bytes fault h
  cases bytes with
  | nil =>
    cases h
    exact .document _
  | cons b rest => cases h

theorem blames_take (n : Nat) : Blames (take n) := by
  intro bytes fault h
  unfold take at h
  split_ifs at h
  cases h
  exact .document _

theorem blames_number (width : Nat) : Blames (number width) := (blames_take width).map ofBigEndian

theorem blames_signed (width : Nat) : Blames (signed width) :=
  (blames_number width).map (ofTwosComplement width)

theorem blames_extension (size : Nat) : Blames (extension size) :=
  (blames_signed 1).bind fun code => (blames_take size).map (Head.extension code)

theorem blames_headOf (lead : Nat) : Blames (headOf lead) := by
  have hsized : ∀ (width : Nat) (f : Bytes → Head),
      Blames (do return f (← take (← number width))) := fun width f =>
    (blames_number width).bind fun n => (blames_take n).map f
  unfold headOf
  split_ifs
  · exact blames_pure _
  · exact blames_pure _
  · exact blames_pure _
  · exact (blames_take _).map Head.text
  · exact blames_pure _
  · split
    all_goals with_reducible first
      | exact blames_pure _
      | exact hsized _ _
      | exact (blames_number _).bind blames_extension
      | exact (blames_number _).map _
      | exact (blames_signed _).map _
      | exact blames_extension _
      | exact blames_malformed

theorem blames_head : Blames head := blames_byte.bind blames_headOf

theorem blames_utf8 (data : Bytes) : Blames (utf8 data) := by
  unfold utf8
  split
  · exact blames_pure _
  · exact blames_throw (.document _)

/-! ## Values -/

theorem blames_instant (data : Bytes) : Blames (instant data) := by
  unfold instant
  split
  · exact blames_illTyped
  · dsimp only
    have hend : ∀ t : Instant, Blames (do
        if Instant.lastSecond < t.seconds then throw (.farYear t.civil.year)
        return t) := by
      intro t
      split_ifs
      · exact (blames_throw (.farYear _)).bind fun _ => blames_pure _
      · exact blames_pure _
    split
    · exact blames_illTyped.bind fun _ => hend _
    · exact hend _

theorem blames_entries {readKey readValue : Reader Value} (hkey : Blames readKey)
    (hvalue : Blames readValue) (n : Nat) (done : List (Value × Value)) :
    Blames (entries readKey readValue n done) := by
  induction n generalizing done with
  | zero => exact blames_pure done
  | succ n ih =>
    refine hkey.bind fun k => hvalue.bind fun v => ?_
    dsimp only
    split_ifs
    · exact blames_malformed.bind fun _ => ih _
    · exact ih _

theorem blames_valueWithin (levels : Nat) (isKey : Bool) : Blames (valueWithin levels isKey) := by
  induction levels generalizing isKey with
  | zero => exact blames_throw .nesting
  | succ levels ih =>
    apply blames_head.bind
    intro start
    cases start with
    | text data => exact (blames_utf8 data).map Value.text
    | array n => exact (blames_many (ih isKey) n).bind fun items => blames_pure _
    | map n => exact (blames_entries (ih true) (ih false) n []).map Value.dict
    | extension code data =>
      dsimp only
      split_ifs
      · exact (blames_instant data).map Value.instant
      · exact blames_pure _
    | _ => exact blames_pure _

theorem blames_value (levels : Nat) : Blames (value levels) := blames_valueWithin _ _

theorem Blames.discard {read : Reader α} (hread : Blames read) : Blames (discard read) := by
  intro bytes fault h
  simp only [Functor.discard, Functor.mapConst, Function.comp, StateT.map] at h
  cases hfirst : read bytes with
  | error first =>
    rw [hfirst] at h
    cases h
    exact hread bytes _ hfirst
  | ok taken =>
    rw [hfirst] at h
    cases h

theorem blames_skipWithin (levels : Nat) : Blames (skipWithin levels) := by
  induction levels with
  | zero => exact blames_throw .nesting
  | succ levels ih =>
    apply blames_head.bind
    intro start
    cases start with
    | array n => exact (blames_many ih n).discard
    | map n => exact (blames_many ih (2 * n)).discard
    | _ => exact blames_pure ()

/-! ## Records -/

theorem blames_text : Blames text := by
  apply blames_head.bind
  intro start
  cases start with
  | text data => exact blames_utf8 data
  | _ => exact blames_illTyped

theorem blames_word (ofText? : String → Option α) : Blames (word ofText?) := by
  apply blames_text.bind
  intro s
  split
  · exact blames_pure _
  · exact blames_illTyped

theorem blames_list {item : Reader α} (hitem : Blames item) : Blames (list item) := by
  apply blames_head.bind
  intro start
  cases start with
  | array n => exact blames_many hitem n
  | _ => exact blames_illTyped

theorem blames_fieldName : Blames fieldName := by
  apply blames_byte.bind
  intro lead
  split_ifs
  · apply (blames_headOf lead).bind
    intro start
    cases start with
    | text data => exact blames_pure data
    | _ => exact blames_illTyped
  · exact blames_illTyped

theorem blames_fields {levels : Nat} {known : List (String × (σ → Reader σ))}
    (hknown : ∀ field ∈ known, ∀ found, Blames (field.2 found)) (n : Nat) (found : σ) :
    Blames (fields levels known n found) := by
  induction n generalizing found with
  | zero => exact blames_pure found
  | succ n ih =>
    apply blames_fieldName.bind
    intro name
    split
    · rename_i field hfield
      exact (hknown _ (List.mem_of_find?_eq_some hfield) found).bind ih
    · exact (blames_skipWithin _).bind fun _ => ih found

theorem blames_record {levels : Nat} {start : σ} {known : List (String × (σ → Reader σ))}
    {finish : σ → Option α} (hknown : ∀ field ∈ known, ∀ found, Blames (field.2 found)) :
    Blames (record levels start known finish) := by
  apply blames_head.bind
  intro head
  cases head with
  | map n =>
    apply (blames_fields hknown n start).bind
    intro found
    split
    · exact blames_pure _
    · exact blames_illTyped
  | _ => exact blames_illTyped

theorem blames_column (levels : Nat) : Blames (Recordable.read levels : Reader Column) := by
  apply blames_record
  simp only [List.forall_mem_cons, List.not_mem_nil, false_imp_iff, implies_true, and_true]
  exact ⟨fun found => blames_text.map _, fun found => (blames_word _).map _⟩

theorem blames_schema (levels : Nat) : Blames (Recordable.read levels : Reader SchemaRecord) := by
  apply blames_record
  simp only [List.forall_mem_cons, List.not_mem_nil, false_imp_iff, implies_true, and_true]
  exact ⟨fun found => (blames_list (blames_column levels)).map _, fun found => (blames_list blames_text).map _⟩

theorem blames_snapshot (levels : Nat) : Blames (Recordable.read levels : Reader Snapshot) := by
  apply blames_record
  simp only [List.forall_mem_cons, List.not_mem_nil, false_imp_iff, implies_true, and_true]
  refine ⟨fun found => blames_text.map _, fun found => (blames_schema levels).map _, fun found => ?_⟩
  exact (blames_list (blames_list (blames_value levels))).map _

theorem ofDocument_readAll {read : Reader α} (hread : Blames read) {bytes : Bytes} {fault : Fault}
    (h : readAll read bytes = .error fault) : fault.OfDocument := by
  unfold readAll at h
  cases hrun : read.run bytes with
  | error first =>
    rw [hrun] at h
    cases h
    exact hread bytes _ hrun
  | ok taken =>
    obtain ⟨x, rest⟩ := taken
    rw [hrun] at h
    cases rest with
    | nil => cases h
    | cons b rest =>
      cases h
      exact .document _

end MsgPack.Reader

/-- A snapshot's document that is refused is at fault as a document. -/
theorem Snapshot.ofDocument_decode {room : MsgPack.Room} {bytes : MsgPack.Bytes} {fault : Fault}
    (h : Recordable.decode Snapshot room bytes = .error fault) : fault.OfDocument :=
  MsgPack.Reader.ofDocument_readAll (MsgPack.Reader.blames_snapshot room.reading) h

end KeyedRelations
