import ApiSurface.Container.Basic
import Mathlib.Data.Option.Basic

/-!
What a container keeps from one question to the next, and that it changes no answer.

An archive remembers where the content of a visited entry starts. As long as its file stays as it is,
the place it remembers is the one that it would find again.
-/

namespace ApiSurface

namespace Archive

/-! ## Entries -/

/-- `e'` is `e`, or `e` with the place where its content starts, as it is read from the data. -/
def Entry.IsVisitOf (data : ByteArray) (e e' : Entry) : Prop :=
  e' = e ∨ ∃ place, e.contentStart = none ∧ contentStart? data e.start = some place ∧
    e' = { e with contentStart := some place }

namespace Entry

variable {data : ByteArray} {e e' : Entry}

theorem IsVisitOf.name (h : e.IsVisitOf data e') : e'.name = e.name := by
  obtain rfl | ⟨place, -, -, rfl⟩ := h <;> rfl

theorem isVisitOf_visit (data : ByteArray) (e : Entry) : e.IsVisitOf data (e.visit data).1 := by
  rw [visit]
  split
  · exact .inl rfl
  · cases hknown : e.contentStart with
    | some place =>
      cases e
      obtain rfl : _ = some place := hknown
      exact .inl rfl
    | none =>
      cases hplace : contentStart? data e.start with
      | none => exact .inl rfl
      | some place => exact .inr ⟨place, hknown, hplace, rfl⟩

/-- A second visit fails like the first one, and where it succeeds it leads to the same entry. -/
theorem IsVisitOf.visit (h : e.IsVisitOf data e') :
    (e'.visit data).2 = (e.visit data).2 ∧
      ((e.visit data).2 = none → (e'.visit data).1 = (e.visit data).1) := by
  obtain rfl | ⟨place, hknown, hplace, rfl⟩ := h
  · exact ⟨rfl, fun _ => rfl⟩
  · rw [Entry.visit, Entry.visit]
    by_cases hencrypted : e.isEncrypted
    · simp [hencrypted]
    · simp [hencrypted, hknown, hplace]

theorem IsVisitOf.isVisitOf_visit (h : e.IsVisitOf data e') :
    e.IsVisitOf data (e'.visit data).1 := by
  obtain rfl | ⟨place, hknown, hplace, rfl⟩ := h
  · exact Entry.isVisitOf_visit data e'
  · have hsame : ({ e with contentStart := some place }.visit data).1
        = { e with contentStart := some place } := by
      rw [Entry.visit]
      split <;> simp
    rw [hsame]
    exact .inr ⟨place, hknown, hplace, rfl⟩

end Entry

/-! ## Archives -/

/-- Every name leads to the same entry in both archives, but for visits. -/
def IsVisitOf (data : ByteArray) (a a' : Archive) : Prop :=
  ∀ name, Option.Rel (Entry.IsVisitOf data) (a.find? name) (a'.find? name)

theorem isVisitOf_refl (data : ByteArray) (a : Archive) : IsVisitOf data a a := by
  intro name
  cases a.find? name with
  | none => exact .none
  | some e => exact .some (.inl rfl)

theorem name_of_find? {a : Archive} {name : String} {e : Entry} (h : a.find? name = some e) :
    e.name = name := by
  simpa using List.find?_some h

/-- Only the name of the entry leads to something else after it has been replaced. -/
theorem find?_replace (e : Entry) (a : Archive) (name : String) : (a.replace e).find? name =
    (a.find? name).map fun old => if name = e.name then e else old := by
  rw [find?, replace, List.find?_map, find?]
  have hname : ∀ old : Entry, (if old.name = e.name then e else old).name = old.name := by
    intro old
    split
    · next h => exact h.symm
    · rfl
  have hsame : ((fun e : Entry => decide (e.name = name)) ∘
      fun old : Entry => if old.name = e.name then e else old) = fun old => decide (old.name = name) := by
    funext old
    simp [hname]
  rw [hsame]
  cases hfind : a.entries.find? (fun old => decide (old.name = name)) with
  | none => rfl
  | some old =>
    have hold : old.name = name := by simpa using List.find?_some hfind
    simp [hold]

theorem IsVisitOf.replace {data : ByteArray} {a a' : Archive} (h : IsVisitOf data a a')
    {name : String} {e e' : Entry} (hfind : a.find? name = some e) (hvisit : e.IsVisitOf data e') :
    IsVisitOf data a (a'.replace e') := by
  intro other
  have hother := h other
  rw [find?_replace]
  by_cases hname : other = e'.name
  · obtain rfl : other = name := by rw [hname, hvisit.name, name_of_find? hfind]
    rw [hfind] at hother ⊢
    cases hfind' : a'.find? other with
    | none => rw [hfind'] at hother; cases hother
    | some old => simpa [← hname] using Option.Rel.some hvisit
  · cases hfind' : a'.find? other with
    | none => simpa [hfind'] using hother
    | some old => simpa [hfind', hname] using hother

end Archive

/-! ## Containers -/

namespace Container

variable {fs : FileSystem} {c c' : Container}

/-- The containers are at the same location, and differ at most in what they remember. -/
inductive IsVisitOf (fs : FileSystem) : Container → Container → Prop
  | archive (path : Path) (file : FileId) {a a' : Archive}
      (h : Archive.IsVisitOf (fs.content file) a a') :
      IsVisitOf fs (.archive path file a) (.archive path file a')
  | folder (path : Path) : IsVisitOf fs (.folder path) (.folder path)

theorem isVisitOf_refl (fs : FileSystem) (c : Container) : IsVisitOf fs c c := by
  cases c with
  | archive path file a => exact .archive path file (Archive.isVisitOf_refl _ a)
  | folder path => exact .folder path

theorem IsVisitOf.contains (h : IsVisitOf fs c c') (name : String) :
    c'.contains fs name = c.contains fs name := by
  cases h with
  | folder path => rfl
  | @archive path file a a' h =>
    have hname := h name
    rw [Container.contains, Container.contains]
    cases hfind : a.find? name with
    | none =>
      cases hfind' : a'.find? name with
      | none => rfl
      | some e' => rw [hfind, hfind'] at hname; cases hname
    | some e =>
      cases hfind' : a'.find? name with
      | none => rw [hfind, hfind'] at hname; cases hname
      | some e' => rfl

theorem readArchived_eq {data : ByteArray} {name : String} {a : Archive} {e : Archive.Entry}
    (path : Path) (max : Nat) (hfind : a.find? name = some e) :
    readArchived data path name max a = (match (e.visit data).2 with
      | some error => .error (unreadable path error)
      | none => readVisited data (location path name) max (e.visit data).1,
      a.replace (e.visit data).1) := by
  rw [readArchived, hfind]
  dsimp only
  split <;> next hvisit => rw [hvisit]

/-- What has been read does not change what is read. -/
theorem IsVisitOf.read (h : IsVisitOf fs c c') (name : String) (max : Nat) :
    (c'.read fs name max).1 = (c.read fs name max).1 ∧ IsVisitOf fs c (c'.read fs name max).2 := by
  cases h with
  | folder path => exact ⟨rfl, .folder path⟩
  | @archive path file a a' h =>
    have hname := h name
    rw [Container.read, Container.read]
    cases hfind : a.find? name with
    | none =>
      cases hfind' : a'.find? name with
      | some e' => rw [hfind, hfind'] at hname; cases hname
      | none =>
        rw [readArchived, readArchived, hfind, hfind']
        exact ⟨rfl, .archive path file h⟩
    | some e =>
      cases hfind' : a'.find? name with
      | none => rw [hfind, hfind'] at hname; cases hname
      | some e' =>
        rw [hfind, hfind'] at hname
        obtain ⟨hvisit⟩ := hname
        obtain ⟨herror, hentry⟩ := hvisit.visit
        rw [readArchived_eq path max hfind, readArchived_eq path max hfind', herror]
        refine ⟨?_, .archive path file (h.replace hfind hvisit.isVisitOf_visit)⟩
        cases hfault : (e.visit (fs.content file)).2 with
        | some error => rfl
        | none => rw [hentry hfault]

end Container

end ApiSurface
