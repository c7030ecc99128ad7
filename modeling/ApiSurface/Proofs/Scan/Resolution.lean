import ApiSurface.Proofs.Reading
import ApiSurface.Proofs.Scan.Surface
import ApiSurface.Scan.Basic
import Mathlib.Data.List.Forall2

/-!
What a scan does with its artifact and its classpath.

The definitions of the artifact are built by a loop over its entries, of which every turn adds what
its entry declares for the first time. The classpath decides only whether a search for a supertype
succeeds, and without strict resolution nothing depends on that.
-/

namespace ApiSurface

open Scan

variable {fs : FileSystem} {max : Nat} {c : Container}

namespace Universe

/-! ## The artifact -/

theorem typesOf_append (ds ds' : List Definition) : typesOf (ds ++ ds') = typesOf ds ++ typesOf ds' :=
  List.filterMap_append

/-- One turn of the loop adds what the content declares for the first time. -/
theorem typesOf_define (ds : List Definition) (entry : String) (content : Bytes) :
    typesOf (define ds entry content)
      = typesOf ds ++ declarations ((typesOf ds).map (·.name)) [content] := by
  rw [define]
  cases hdecoded : TypeDecl.ofBytes content with
  | error e =>
    have hdeclared : declared? content = none := by rw [declared?, hdecoded]; rfl
    rw [declarations_undecodable hdeclared]
    simp [typesOf, Definition.type?, declarations]
  | ok t =>
    have hdeclared : declared? content = some t := by rw [declared?, hdecoded]; rfl
    have hknown : (typesOf ds).any (·.name = t.name) = true ↔ t.name ∈ (typesOf ds).map (·.name) := by
      simp [List.any_eq_true]
    dsimp only
    split
    · next hany => rw [declarations_known hdeclared (hknown.1 hany), declarations, List.append_nil]
    · next hany =>
      rw [declarations_new hdeclared fun hmem => hany (hknown.2 hmem), declarations, typesOf_append]
      rfl

/-- All turns together add the declarations of the contents. -/
theorem foldlM_define {entries : List ClassEntry} {contents : List Bytes}
    (hread : List.Forall₂ (fun e content => (c.read fs e.name max).1 = .ok content) entries contents)
    (ds : List Definition) :
    ∃ ds', entries.foldlM (fun ds e => do return define ds e.name (← (c.read fs e.name max).1)) ds
        = .ok ds' ∧
      typesOf ds' = typesOf ds ++ declarations ((typesOf ds).map (·.name)) contents := by
  induction hread generalizing ds with
  | nil => exact ⟨ds, rfl, by simp [declarations]⟩
  | @cons e content entries contents hcontent hread ih =>
    obtain ⟨ds', hfold, htypes⟩ := ih (define ds e.name content)
    refine ⟨ds', ?_, ?_⟩
    · rw [List.foldlM_cons, hcontent]
      exact hfold
    · rw [htypes, typesOf_define, List.map_append, List.append_assoc, ← declarations_append]
      rfl

theorem definitionsOf_eq_ok {entries : List ClassEntry} {contents : List Bytes}
    (hread : List.Forall₂ (fun e content => (c.read fs e.name max).1 = .ok content) entries contents) :
    ∃ ds, definitionsOf fs max c entries = .ok ds ∧ typesOf ds = declarations [] contents :=
  foldlM_define hread []

/-! ## The classpath -/

theorem dependenciesOf_eq_ok {classpath : List Path}
    (h : ∀ path ∈ classpath, fs.has path → ∃ d, Container.ofPath fs path = .ok d) :
    ∃ ds, dependenciesOf fs classpath = .ok ds := by
  have hall : ∀ path ∈ classpath.filter fs.has, ∃ d, Container.ofPath fs path = .ok d := by
    intro path hpath
    obtain ⟨hmem, hhas⟩ := List.mem_filter.1 hpath
    exact h path hmem hhas
  exact exists_mapM_eq_ok_iff.2 hall

/-- An artifact whose entries can be listed and read gives a universe, if the classpath opens. -/
theorem resolve_eq_ok {r : ScanRequest} {c' : Container} {entries : List ClassEntry}
    {contents : List Bytes} (hopen : Container.ofPath fs r.artifact = .ok c)
    (hlist : c.classEntries fs = (.ok entries, c'))
    (hread : List.Forall₂ (fun e content => (c'.read fs e.name max).1 = .ok content) entries contents)
    (hclasspath : ∀ path ∈ r.classpath, fs.has path → ∃ d, Container.ofPath fs path = .ok d) :
    ∃ u, resolve fs max r = .ok u ∧ typesOf u.definitions = declarations [] contents := by
  obtain ⟨ds, hds, htypes⟩ := definitionsOf_eq_ok hread
  obtain ⟨dependencies, hdependencies⟩ := dependenciesOf_eq_ok hclasspath
  refine ⟨⟨r.artifact, ds, dependencies, [], max⟩, ?_, htypes⟩
  simp only [resolve, hopen, hlist, hds, hdependencies, bind, Except.bind]
  rfl

/-- A search that is not strict finds fault with nothing. -/
theorem unresolvedAmong_lenient (fs : FileSystem) (names : List String) (u : Universe) :
    (u.unresolvedAmong fs false names).1 = none := by
  induction names generalizing u with
  | nil => rfl
  | cons name rest ih =>
    rw [unresolvedAmong]
    split
    · exact ih u
    · split
      · exact ih _
      · exact ih _

theorem checkSupertypes_lenient (fs : FileSystem) (t : TypeDecl) (u : Universe) :
    (u.checkSupertypes fs false t).1 = .ok () := by
  have hfound := unresolvedAmong_lenient fs t.supertypes u
  rw [checkSupertypes]
  cases hsearch : u.unresolvedAmong fs false t.supertypes with
  | mk unresolved u' =>
    obtain rfl : unresolved = none := by rwa [hsearch] at hfound
    rfl

end Universe

namespace Scan

/-- Without strict resolution every type has its block, whatever its supertypes are. -/
theorem blocks_lenient {s : ScannerSettings} (hstrict : s.strictResolution = false)
    (types : List TypeDecl) (u : Universe) :
    blocks fs s types u = .ok (types.flatMap (·.block s.includeSynthetic)) := by
  induction types generalizing u with
  | nil => rfl
  | cons t rest ih =>
    have hfound := Universe.checkSupertypes_lenient fs t u
    rw [blocks, hstrict]
    cases hcheck : u.checkSupertypes fs false t with
    | mk result u' =>
      obtain rfl : result = .ok () := by rwa [hcheck] at hfound
      dsimp only
      rw [ih u', List.flatMap_cons]
      rfl

end Scan

end ApiSurface
