import Mathlib
import RecordFilter.Directory
import RecordFilter.Proofs.Text.Percent

/-!
# Directory — a file that has been written is read back

A text leads to its place through folders alone. Putting a file somewhere makes no folder anything else, so the text
leads to the same place afterwards, and there stands the file.

* `Directory.put`: a directory with a file put at a place.
* `Directory.entry?_put`, `Directory.entry?_put_of_folder`: what stands there then, and at the folders.
* `Directory.walk_put`: the way to a place.
* `Directory.read_of_write`: reading what has been written.
* `Directory.readText_of_read`: the bytes of a text are read as the text.
-/

namespace RecordFilter.Directory

variable {d d' : Directory} {path : String} {place p q : List String} {content : List UInt8}

/-- The directory with a file put at a place. -/
def put (d : Directory) (place : List String) (content : List UInt8) : Directory :=
  { d with entries := setEntry place (.file content) d.entries }

/-! ## Entries -/

theorem lookup_cons_eq_if (p k : List String) (e : Entry) (rest : List (List String × Entry)) :
    ((k, e) :: rest).lookup p = if p = k then some e else rest.lookup p := by
  by_cases h : p = k
  · subst h
    rw [List.lookup_cons, beq_self_eq_true, if_pos rfl]
  · rw [List.lookup_cons, beq_false_of_ne h, if_neg h]

theorem lookup_setEntry (place p : List String) (e : Entry) (entries : List (List String × Entry)) :
    (setEntry place e entries).lookup p = if p = place then some e else entries.lookup p := by
  induction entries with
  | nil => exact lookup_cons_eq_if p place e []
  | cons first rest ih =>
    obtain ⟨k, f⟩ := first
    rw [setEntry]
    by_cases hk : k = place
    · subst hk
      rw [if_pos rfl, lookup_cons_eq_if, lookup_cons_eq_if]
      split <;> rfl
    · rw [if_neg hk, lookup_cons_eq_if, lookup_cons_eq_if, ih]
      by_cases hp : p = k
      · rw [if_pos hp, if_neg (hp ▸ hk), if_pos hp]
      · rw [if_neg hp, if_neg hp]

/-- The places where something stands stay in the list. -/
theorem any_setEntry {test : List String → Bool} {e : Entry} {entries : List (List String × Entry)}
    (h : (entries.any fun entry => test entry.1) = true) :
    ((setEntry place e entries).any fun entry => test entry.1) = true := by
  induction entries with
  | nil => cases h
  | cons first rest ih =>
    obtain ⟨k, f⟩ := first
    rw [setEntry]
    rw [List.any_cons, Bool.or_eq_true] at h
    split
    · rw [List.any_cons, Bool.or_eq_true]
      exact h
    · rw [List.any_cons, Bool.or_eq_true]
      exact h.imp_right ih

/-- Where no folder stood, the file stands now. -/
theorem entry?_put (h : d.entry? place ≠ some .folder) :
    entry? (d.put place content) place = some (.file content) := by
  have hhere : place.isPrefixOf d.here ≠ true := fun hprefix => h (if_pos hprefix)
  unfold entry? put
  rw [if_neg hhere, lookup_setEntry, if_pos rfl]
  rfl

/-- Folders are left as they are. -/
theorem entry?_put_of_folder (h : d.entry? place ≠ some .folder) (hp : d.entry? p = some .folder) :
    entry? (d.put place content) p = some .folder := by
  have hne : p ≠ place := by
    rintro rfl
    exact h hp
  unfold entry? put at *
  split
  · rfl
  · next hhere =>
    rw [if_neg hhere] at hp
    rw [lookup_setEntry, if_neg hne]
    cases hlookup : d.entries.lookup p with
    | some e =>
      rw [hlookup] at hp
      exact hp
    | none =>
      rw [hlookup, Option.none_or] at hp
      rw [Option.none_or, if_pos]
      refine any_setEntry ?_
      by_contra hany
      rw [if_neg hany] at hp
      cases hp

/-! ## Places -/

/-- The way to a place leads through folders, and so it is not changed. -/
theorem walk_put (h : d.entry? place ≠ some .folder) {names : List String} (hwalk : d.walk p names = .ok q) :
    (d.put place content).walk p names = .ok q := by
  induction names generalizing p with
  | nil => exact hwalk
  | cons name rest ih =>
    rw [walk] at hwalk ⊢
    cases hp : d.entry? p with
    | none =>
      rw [hp] at hwalk
      cases hwalk
    | some e =>
      rw [hp] at hwalk
      cases e with
      | file => cases hwalk
      | folder =>
        rw [entry?_put_of_folder h hp]
        dsimp only at hwalk ⊢
        split_ifs at hwalk ⊢
        · exact ih hwalk
        · exact ih hwalk
        · exact ih hwalk

/-- A place for a new file is the one that its text names. -/
theorem locate_of_locateNew (h : d.locateNew path = .ok place) : d.locate path = .ok place := by
  unfold locateNew at h
  unfold locate
  cases hnames : names path with
  | error fault =>
    rw [hnames] at h
    cases h
  | ok all =>
    rw [hnames] at h
    simp only [bind, Except.bind] at h ⊢
    split at h
    · exact h
    · exact h
    · exact h
    · split at h
      · exact h
      · split at h <;> cases h

theorem write_eq_ok_iff : d.write path content = .ok d' ↔
    ∃ place, d.locateNew path = .ok place ∧ d.entry? place ≠ some .folder ∧ d' = d.put place content := by
  unfold write
  cases hplace : d.locateNew path with
  | error fault => simp [bind, Except.bind]
  | ok place =>
    simp only [bind, Except.bind, Except.ok.injEq, exists_eq_left']
    split
    · next hfolder => simp [hfolder, throw, throwThe, MonadExceptOf.throw]
    · next hfolder =>
      constructor
      · rintro ⟨⟩
        exact ⟨hfolder, rfl⟩
      · rintro ⟨-, rfl⟩
        rfl

/-- **A file that has been written is read back.** -/
theorem read_of_write (h : d.write path content = .ok d') : d'.read path = .ok content := by
  obtain ⟨place, hplace, hfolder, rfl⟩ := write_eq_ok_iff.mp h
  have hlocate : (d.put place content).locate path = .ok place := by
    have hbefore := locate_of_locateNew hplace
    unfold locate at hbefore ⊢
    cases hnames : names path with
    | error fault =>
      rw [hnames] at hbefore
      cases hbefore
    | ok all =>
      rw [hnames] at hbefore
      exact walk_put hfolder hbefore
  rw [read, hlocate]
  simp only [bind, Except.bind, entry?_put hfolder]
  rfl

/-- The bytes of a text are read as the text. -/
theorem readText_of_read {text : String} (h : d.read path = .ok (Text.Utf8.encode text)) :
    d.readText path = .ok text := by
  rw [readText, h]
  simp only [bind, Except.bind, Text.Utf8.decode_encode]
  rfl

end RecordFilter.Directory
