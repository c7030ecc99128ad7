import ApiSurface.Proofs.Scan.Resolution

/-!
Finding a type of the artifact by a table.

A table from names to places among the definitions can be kept up while the entries come, beside
definitions that hold entries without a type as well. It leads to every type under its name and to
nothing else, so asking it is the same as going through all definitions.
-/

namespace ApiSurface

namespace Universe

/-- Definitions, with a table of the places of the types among them. -/
structure Index where
  definitions : List Definition
  places : List (String × Nat)

namespace Index

variable {x : Index} {name : String} {t : TypeDecl}

def empty : Index where
  definitions := []
  places := []

/-- The table has a place for the name. -/
def knows (x : Index) (name : String) : Bool :=
  (x.places.lookup name).isSome

/-- The type at the place for the name. -/
def type? (x : Index) (name : String) : Option TypeDecl :=
  (x.places.lookup name).bind fun place => x.definitions[place]?.bind Definition.type?

/-- The index with what one more entry gives. A name that is known already keeps its place. -/
def define (x : Index) (entry : String) (content : Bytes) : Index :=
  match TypeDecl.ofBytes content with
  | .error e => { x with definitions := x.definitions ++ [.unloadable entry e] }
  | .ok t =>
    if x.knows t.name then x
    else ⟨x.definitions ++ [.loaded t], (t.name, x.definitions.length) :: x.places⟩

/-- The index with what one more entry gives when it is read with at most `max` bytes. -/
def read (fs : FileSystem) (max : Nat) (c : Container) (x : Index) (e : ClassEntry) :
    Except ScanError Index := do
  return x.define e.name (← (c.read fs e.name max).1)

/-- The index that entries give. -/
def ofEntries (fs : FileSystem) (max : Nat) (c : Container) (entries : List ClassEntry) :
    Except ScanError Index :=
  entries.foldlM (read fs max c) empty

/-- The table leads to the types among the definitions, each under its name. Since a name has one place
in it, no two of them have the same name. -/
def IsExact (x : Index) : Prop :=
  ∀ name place, x.places.lookup name = some place ↔
    ∃ t, x.definitions[place]? = some (.loaded t) ∧ t.name = name

theorem isExact_empty : empty.IsExact := by
  intro name place
  simp [empty]

theorem type?_eq_some (h : x.IsExact) : x.type? name = some t ↔
    .loaded t ∈ x.definitions ∧ t.name = name := by
  rw [type?, Option.bind_eq_some_iff]
  constructor
  · rintro ⟨place, hplace, htype⟩
    obtain ⟨t', hget, rfl⟩ := (h name place).1 hplace
    rw [hget] at htype
    obtain rfl : t' = t := Option.some.inj htype
    exact ⟨List.mem_of_getElem? hget, rfl⟩
  · rintro ⟨hmem, rfl⟩
    obtain ⟨place, hget⟩ := List.mem_iff_getElem?.1 hmem
    exact ⟨place, (h _ _).2 ⟨t, hget, rfl⟩, by rw [hget]; rfl⟩

theorem knows_eq (h : x.IsExact) (name : String) : x.knows name = (x.type? name).isSome := by
  rw [knows, type?]
  cases hplace : x.places.lookup name with
  | none => rfl
  | some place =>
    obtain ⟨t, hget, -⟩ := (h name place).1 hplace
    simp [hget, Definition.type?]

theorem mem_typesOf {ds : List Definition} : t ∈ typesOf ds ↔ .loaded t ∈ ds := by
  rw [typesOf, List.mem_filterMap]
  constructor
  · rintro ⟨d, hd, htype⟩
    cases d with
    | unloadable entry reason => cases htype
    | loaded t' =>
      obtain rfl : t' = t := Option.some.inj htype
      exact hd
  · exact fun h => ⟨.loaded t, h, rfl⟩

/-- Asking the table finds what a search through the definitions finds. -/
theorem type?_eq_find? (h : x.IsExact) (name : String) :
    x.type? name = (typesOf x.definitions).find? (·.name = name) := by
  cases hfind : (typesOf x.definitions).find? (·.name = name) with
  | none =>
    cases htype : x.type? name with
    | none => rfl
    | some t =>
      obtain ⟨hmem, hname⟩ := (type?_eq_some h).1 htype
      have hother := List.find?_eq_none.1 hfind t (mem_typesOf.2 hmem)
      simp [hname] at hother
  | some t =>
    have hname : t.name = name := by simpa using List.find?_some hfind
    exact (type?_eq_some h).2 ⟨mem_typesOf.1 (List.mem_of_find?_eq_some hfind), hname⟩

theorem getElem?_concat_eq_loaded {ds : List Definition} {d : Definition} {place : Nat} :
    (ds ++ [d])[place]? = some (.loaded t) ↔
      ds[place]? = some (.loaded t) ∨ place = ds.length ∧ d = .loaded t := by
  rw [List.getElem?_append, List.getElem?_singleton]
  split
  · next hlt => simp [Nat.ne_of_lt hlt]
  · next hge =>
    have hnone : ds[place]? = none := List.getElem?_eq_none (Nat.not_lt.1 hge)
    have hplace : place - ds.length = 0 ↔ place = ds.length := by omega
    simp [hnone, hplace]

/-- An entry that adds a definition of no type leaves the places as they are. -/
theorem IsExact.unloadable (h : x.IsExact) (entry : String) (reason : DeclError) :
    IsExact { x with definitions := x.definitions ++ [.unloadable entry reason] } := by
  intro name place
  rw [h name place]
  simp only [getElem?_concat_eq_loaded, reduceCtorEq, and_false, or_false]

/-- A type with a new name is found behind all others. -/
theorem IsExact.loaded (h : x.IsExact) (hnew : x.knows t.name = false) :
    IsExact ⟨x.definitions ++ [.loaded t], (t.name, x.definitions.length) :: x.places⟩ := by
  intro name place
  simp only [getElem?_concat_eq_loaded, List.lookup_cons]
  by_cases hname : name = t.name
  · have hunknown : x.places.lookup name = none := by simpa [knows, hname] using hnew
    constructor
    · intro hplace
      obtain rfl : x.definitions.length = place := by simpa [hname] using hplace
      exact ⟨t, .inr ⟨rfl, rfl⟩, hname.symm⟩
    · rintro ⟨t', hget | ⟨rfl, -⟩, hname'⟩
      · rw [(h name place).2 ⟨t', hget, hname'⟩] at hunknown
        cases hunknown
      · simp [hname]
  · have hother : (name == t.name) = false := by simpa using hname
    rw [hother]
    dsimp only
    rw [h name place]
    refine exists_congr fun t' => and_congr_left fun hname' => ?_
    have hdifferent : Definition.loaded t ≠ .loaded t' := by
      rintro ⟨⟩
      exact hname hname'.symm
    simp [hdifferent]

theorem IsExact.define (h : x.IsExact) (entry : String) (content : Bytes) :
    (x.define entry content).IsExact := by
  rw [Index.define]
  cases TypeDecl.ofBytes content with
  | error e => exact h.unloadable entry e
  | ok t =>
    dsimp only
    split
    · exact h
    · next hnew => exact h.loaded (by simpa using hnew)

theorem definitions_define (h : x.IsExact) (entry : String) (content : Bytes) :
    (x.define entry content).definitions = Universe.define x.definitions entry content := by
  rw [Index.define, Universe.define]
  cases TypeDecl.ofBytes content with
  | error e => rfl
  | ok t =>
    have hknown : x.knows t.name = (typesOf x.definitions).any (·.name = t.name) := by
      rw [knows_eq h, type?_eq_find? h, Bool.eq_iff_iff, List.find?_isSome, List.any_eq_true]
    dsimp only
    rw [hknown]
    split <;> rfl

theorem isExact_of_foldlM {fs : FileSystem} {max : Nat} {c : Container} {entries : List ClassEntry}
    {x' : Index} (h : x.IsExact) (hfold : entries.foldlM (read fs max c) x = .ok x') : x'.IsExact := by
  induction entries generalizing x with
  | nil =>
    obtain rfl := Except.ok.inj hfold
    exact h
  | cons e rest ih =>
    rw [List.foldlM_cons, read] at hfold
    cases hread : (c.read fs e.name max).1 with
    | error failure => rw [hread] at hfold; cases hfold
    | ok content =>
      rw [hread] at hfold
      exact ih (h.define e.name content) hfold

theorem definitions_foldlM (fs : FileSystem) (max : Nat) (c : Container) (entries : List ClassEntry)
    (h : x.IsExact) :
    (entries.foldlM (read fs max c) x).map Index.definitions =
      entries.foldlM (fun ds e => do return Universe.define ds e.name (← (c.read fs e.name max).1))
        x.definitions := by
  induction entries generalizing x with
  | nil => rfl
  | cons e rest ih =>
    rw [List.foldlM_cons, List.foldlM_cons, read]
    cases (c.read fs e.name max).1 with
    | error failure => rfl
    | ok content =>
      have hrest := ih (h.define e.name content)
      rw [definitions_define h] at hrest
      exact hrest

theorem isExact_ofEntries {fs : FileSystem} {max : Nat} {c : Container} {entries : List ClassEntry}
    (h : ofEntries fs max c entries = .ok x) : x.IsExact :=
  isExact_of_foldlM isExact_empty h

/-- The entries give the same definitions with a table and without one. -/
theorem definitions_ofEntries (fs : FileSystem) (max : Nat) (c : Container) (entries : List ClassEntry) :
    (ofEntries fs max c entries).map Index.definitions = definitionsOf fs max c entries :=
  definitions_foldlM fs max c entries isExact_empty

end Index

end Universe

end ApiSurface
