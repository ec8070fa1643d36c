import CircuitBlocks.MessagePack.Record
import CircuitBlocks.Proofs.ReadBack
import CircuitBlocks.Proofs.Text.Utf8

/-!
# MessagePack records — written fields read back

* `readText_text` — a written text reads back.
* **`fields?_record`** — the fields of a written record are those that were written, if their names are
  declared and differ.
* `forall_of_declaredEntries?`, `exists_of_required` — what is read of a field holds what all values hold.
-/

namespace CircuitBlocks.MessagePack

open Text

@[simp] theorem readText_text (s : String) : readText (text s) = some s := Utf8.decode?_encode s

@[simp] theorem readNullable_text (s : String) : readNullable readText (text s) = some (some s) := by
  show (readText (text s)).map some = some (some s)
  rw [readText_text]
  rfl

theorem name?_text {names : List String} {name : String} (h : name ∈ names) :
    name? names (text name) = some (some name) := by
  have hfind : (names.find? fun n => Utf8.encode n = Utf8.encode name) = some name := by
    induction names with
    | nil => cases h
    | cons n ns ih =>
      by_cases hn : n = name
      · rw [List.find?_cons_of_pos (by rw [hn]; exact decide_eq_true rfl), hn]
      · have hencode : ¬ Utf8.encode n = Utf8.encode name := fun heq => hn (Utf8.encode_injective heq)
        rw [List.find?_cons_of_neg (by rw [decide_eq_false hencode]; exact Bool.false_ne_true)]
        exact ih (List.mem_of_ne_of_mem (Ne.symm hn) h)
  show some (names.find? fun n => Utf8.encode n = Utf8.encode name) = some (some name)
  rw [hfind]

/-- The fields of a written record are those that were written. -/
theorem fields?_record {names : List String} {fields : List (String × MessagePack)}
    (hdeclared : ∀ f ∈ fields, f.1 ∈ names) (hnodup : (fields.map (·.1)).Nodup) :
    fields? names (record fields) = some fields := by
  show declaredEntries? names (fields.map fun f => (text f.1, f.2)) = some fields
  induction fields with
  | nil => rfl
  | cons f fs ih =>
    obtain ⟨hf, hnodup⟩ := List.nodup_cons.1 hnodup
    have hothers := ih (fun g hg => hdeclared g (List.mem_cons_of_mem _ hg)) hnodup
    rw [List.map_cons, declaredEntries?, name?_text (hdeclared f List.mem_cons_self), hothers]
    show (if fs.any (fun g => g.1 = f.1) then none else some ((f.1, f.2) :: fs)) = some (f :: fs)
    rw [any_name_eq_false hf]
    rfl

/-! ## Fields that are read -/

section Readers

variable {P : MessagePack → Prop} {α : Type} {read : MessagePack → Option α}

/-- What holds of the values of all entries holds of the fields among them. -/
theorem forall_of_declaredEntries? {names : List String} {entries : List (MessagePack × MessagePack)}
    {fields : List (String × MessagePack)} (hvalues : ∀ e ∈ entries, P e.2)
    (h : declaredEntries? names entries = some fields) : ∀ f ∈ fields, P f.2 := by
  induction entries generalizing fields with
  | nil =>
    cases h
    exact List.forall_mem_nil _
  | cons e entries ih =>
    obtain ⟨key, v⟩ := e
    obtain ⟨hv, hvalues⟩ := List.forall_mem_cons.1 hvalues
    rw [declaredEntries?] at h
    obtain ⟨name, -, h⟩ := Option.bind_eq_some_iff.1 h
    obtain ⟨others, hothers, h⟩ := Option.bind_eq_some_iff.1 h
    have hrest := ih hvalues hothers
    -- an entry with another name is passed over
    cases name with
    | none =>
      cases h
      exact hrest
    | some name =>
      dsimp only at h
      split at h
      · cases h
      · cases h
        exact List.forall_mem_cons.2 ⟨hv, hrest⟩

/-- A required field is one of the values. -/
theorem exists_of_required {fields : List (String × MessagePack)} {name : String} {x : α}
    (hfields : ∀ f ∈ fields, P f.2) (h : required fields name read = some x) :
    ∃ u : MessagePack, P u ∧ read u = some x := by
  obtain ⟨u, hu, hread⟩ := Option.bind_eq_some_iff.1 h
  obtain ⟨before, after, rfl, -⟩ := List.lookup_eq_some_iff.1 hu
  exact ⟨u, hfields _ (List.mem_append_right _ List.mem_cons_self), hread⟩

/-- A nullable field that is there is one of the values. -/
theorem exists_of_nullable {fields : List (String × MessagePack)} {name : String} {x : α}
    (hfields : ∀ f ∈ fields, P f.2) (h : nullable fields name read = some (some x)) :
    ∃ u : MessagePack, P u ∧ read u = some x := by
  unfold nullable at h
  split at h
  · cases h
  · -- the value that is looked up is in the record
    next u hu =>
    obtain ⟨before, after, rfl, -⟩ := List.lookup_eq_some_iff.1 hu
    refine ⟨u, hfields _ (List.mem_append_right _ List.mem_cons_self), ?_⟩
    unfold readNullable at h
    split at h
    · cases h
    · obtain ⟨y, hy, heq⟩ := Option.map_eq_some_iff.1 h
      cases heq
      exact hy

end Readers

end CircuitBlocks.MessagePack
