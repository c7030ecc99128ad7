import ApiSurface.Proofs.Scan.Answers
import ApiSurface.Proofs.Scan.LongerClasspath

/-!
The location of a classpath that a search goes to.

It is the first one that opens and has an entry for the name. The containers of a universe stand in the
order of the classpath, with locations left out that are not there, so their first one with the entry is
that of this location. What stands behind it is not asked anything.
-/

namespace ApiSurface

open Asking

/-! ## Containers -/

namespace Container

variable {fs : FileSystem} {c c' : Container} {path : Path}

/-- What a path that opens leads to. -/
theorem cases_of_ofPath (h : ofPath fs path = .ok c) :
    (∃ children, fs.stat path = .ok (.folder children) ∧ c = .folder path) ∨
      ∃ id a, fs.stat path = .ok (.file id) ∧ Archive.ofData? (fs.content id) = some a ∧
        c = .archive path id a := by
  rw [ofPath] at h
  cases hstat : fs.stat path with
  | error e => rw [hstat] at h; cases h
  | ok node =>
    rw [hstat] at h
    simp only [Except.mapError, bind, Except.bind] at h
    cases node with
    | file id =>
      cases harchive : Archive.ofData? (fs.content id) with
      | none => simp only [harchive] at h; cases h
      | some a =>
        simp only [harchive] at h
        exact .inr ⟨id, a, rfl, harchive, (Except.ok.inj h).symm⟩
    | folder children => exact .inl ⟨children, rfl, (Except.ok.inj h).symm⟩
    | link target => cases h
    | device => cases h

theorem path_of_ofPath (h : ofPath fs path = .ok c) : c.path = path := by
  obtain ⟨children, -, rfl⟩ | ⟨id, a, -, -, rfl⟩ := cases_of_ofPath h <;> rfl

theorem has_of_ofPath (h : ofPath fs path = .ok c) : fs.has path := by
  obtain ⟨children, hstat, -⟩ | ⟨id, a, hstat, -, -⟩ := cases_of_ofPath h <;>
    rw [FileSystem.has, hstat] <;> rfl

theorem IsVisitOf.asked_having (h : IsVisitOf fs c c') (entry : String) :
    (c'.having entry).asked fs = (c.having entry).asked fs := by
  cases h <;> rfl

theorem IsVisitOf.asked_reading (h : IsVisitOf fs c c') (entry : String) (max : Nat) :
    (c'.reading entry max).asked fs = (c.reading entry max).asked fs := by
  cases h <;> rfl

end Container

namespace Universe

variable {fs : FileSystem} {max : Nat} {u v : Universe} {name entry : String} {location : Path}
  {before after classpath : List Path} {c : Container} {cs cs' front back : List Container}

/-! ## Locations -/

/-- The location opens and has an entry for the type of that name. -/
def Holds (fs : FileSystem) (name : String) (location : Path) : Prop :=
  ∃ c, Container.ofPath fs location = .ok c ∧ c.contains fs (EntryName.ofBinaryName name)

/-- The location has an entry for the type of that name, and none of those before it has one. -/
structure IsFirstHolder (fs : FileSystem) (name : String) (before : List Path) (location : Path) :
    Prop where
  holds : Holds fs name location
  first : ∀ earlier ∈ before, ¬ Holds fs name earlier

theorem exists_isFirstHolder (hmem : location ∈ classpath) (h : Holds fs name location) :
    ∃ before location after, classpath = before ++ location :: after ∧
      IsFirstHolder fs name before location := by
  induction classpath with
  | nil => cases hmem
  | cons first rest ih =>
    by_cases hfirst : Holds fs name first
    · exact ⟨[], first, rest, rfl, hfirst, by simp⟩
    · obtain rfl | hrest := List.mem_cons.1 hmem
      · exact absurd h hfirst
      · obtain ⟨before, found, after, rfl, hfound⟩ := ih hrest
        exact ⟨first :: before, found, after, rfl, hfound.holds,
          List.forall_mem_cons.2 ⟨hfirst, hfound.first⟩⟩

theorem find?_dependenciesOf_eq_none (h : dependenciesOf fs classpath = .ok cs) :
    cs.find? (·.contains fs (EntryName.ofBinaryName name)) = none ↔
      ∀ location ∈ classpath, ¬ Holds fs name location := by
  rw [List.find?_eq_none]
  constructor
  · rintro hnone location hmem ⟨c, hopen, hcontains⟩
    have hthere : location ∈ classpath.filter fs.has :=
      List.mem_filter.2 ⟨hmem, Container.has_of_ofPath hopen⟩
    exact hnone c ((mem_of_mapM_eq_ok h c).2 ⟨location, hthere, hopen⟩) hcontains
  · intro hnone c hc hcontains
    obtain ⟨location, hthere, hopen⟩ := (mem_of_mapM_eq_ok h c).1 hc
    exact hnone location (List.mem_of_mem_filter hthere) ⟨c, hopen, hcontains⟩

theorem dependenciesOf_append_eq_ok {extra : List Path} :
    dependenciesOf fs (classpath ++ extra) = .ok cs ↔
      ∃ front back, dependenciesOf fs classpath = .ok front ∧ dependenciesOf fs extra = .ok back ∧
        cs = front ++ back := by
  rw [dependenciesOf_append]
  cases dependenciesOf fs classpath with
  | error e => simp [Except.bind]
  | ok front =>
    cases dependenciesOf fs extra with
    | error e => simp [Except.bind, Except.map]
    | ok back => simp [Except.bind, Except.map, eq_comm]

/-- The containers in front of that of the first holder do not have the entry. -/
theorem IsFirstHolder.dependenciesOf_eq (hfirst : IsFirstHolder fs name before location)
    (h : dependenciesOf fs (before ++ location :: after) = .ok cs) :
    ∃ front c back, cs = front ++ c :: back ∧ Container.ofPath fs location = .ok c ∧
      dependenciesOf fs (before ++ [location]) = .ok (front ++ [c]) ∧
      c.contains fs (EntryName.ofBinaryName name) ∧
      ∀ d ∈ front, ¬ d.contains fs (EntryName.ofBinaryName name) := by
  obtain ⟨c, hopen, hcontains⟩ := hfirst.holds
  have hthere := Container.has_of_ofPath hopen
  have hsingle : dependenciesOf fs [location] = .ok [c] := by
    rw [dependenciesOf, List.filter_cons_of_pos hthere]
    exact mapM_cons_eq_ok.2 ⟨c, [], hopen, rfl, rfl⟩
  obtain ⟨front, rest, hfront, hrest, rfl⟩ := dependenciesOf_append_eq_ok.1 h
  obtain ⟨one, back, hone, -, rfl⟩ := dependenciesOf_append_eq_ok.1 (List.singleton_append ▸ hrest)
  obtain rfl := Except.ok.inj (hsingle.symm.trans hone)
  refine ⟨front, c, back, rfl, hopen, dependenciesOf_append_eq_ok.2 ⟨front, [c], hfront, hsingle, rfl⟩,
    hcontains, fun d hd => ?_⟩
  obtain ⟨earlier, hearlier, hopen'⟩ := (mem_of_mapM_eq_ok hfront d).1 hd
  exact fun hd' => hfirst.first earlier (List.mem_of_mem_filter hearlier) ⟨d, hopen', hd'⟩

/-! ## Questions to the files -/

theorem asked_readingFirst_cons (fs : FileSystem) (max : Nat) (entry : String) (c : Container)
    (cs : List Container) : (readingFirst max entry (c :: cs)).asked fs =
      (c.having entry).asked fs ++
        if c.contains fs entry then (c.reading entry max).asked fs
        else (readingFirst max entry cs).asked fs := by
  rw [readingFirst, asked_bind, Container.run_having]
  congr 1
  split
  · rw [asked_bind]
    exact List.append_nil _
  · rw [asked_bind]
    exact List.append_nil _

theorem asked_readingFirst_visited (h : List.Forall₂ (Container.IsVisitOf fs) cs cs') (max : Nat)
    (entry : String) : (readingFirst max entry cs').asked fs = (readingFirst max entry cs).asked fs := by
  induction h with
  | nil => rfl
  | cons hc hrest ih =>
    rw [asked_readingFirst_cons, asked_readingFirst_cons, hc.asked_having, hc.asked_reading, hc.contains,
      ih]

/-- Behind the first container that has the entry nothing is asked. -/
theorem asked_readingFirst_append (hfront : ∀ d ∈ front, ¬ d.contains fs entry)
    (hc : c.contains fs entry) (max : Nat) (back : List Container) :
    (readingFirst max entry (front ++ c :: back)).asked fs =
      (readingFirst max entry (front ++ [c])).asked fs := by
  induction front with
  | nil => simp only [List.nil_append, asked_readingFirst_cons, hc, if_true]
  | cons d rest ih =>
    obtain ⟨hd, hrest⟩ := List.forall_mem_cons.1 hfront
    simp only [List.cons_append, asked_readingFirst_cons, hd, ih hrest]

theorem asked_loading (hartifact : u.artifactType? name = none) (hanswers : u.answers.lookup name = none) :
    (u.loading name).asked fs =
      (readingFirst u.maxClassFileSize (EntryName.ofBinaryName name) u.dependencies).asked fs := by
  rw [loading, hartifact]
  dsimp only
  rw [hanswers]
  dsimp only
  rw [asked_bind, run_lookingUp, lookingUp, asked_bind]
  obtain ⟨result, looked⟩ := u.lookUp fs name
  cases result <;> simp [pure, asked]

/-- A search that has been made before asks nothing again. -/
theorem IsVisitOf.asked_loading_subset (h : IsVisitOf fs u v) (hartifact : u.artifactType? name = none) :
    (v.loading name).asked fs ⊆
      (readingFirst u.maxClassFileSize (EntryName.ofBinaryName name) u.dependencies).asked fs := by
  have hartifact' := (h.artifactType? name).trans hartifact
  cases hanswers : v.answers.lookup name with
  | some answer =>
    rw [loading, hartifact']
    dsimp only
    rw [hanswers]
    exact List.nil_subset _
  | none =>
    rw [asked_loading hartifact' hanswers, h.maxClassFileSize, asked_readingFirst_visited h.dependencies]
    exact List.Subset.refl _

end Universe

end ApiSurface
