import ApiSurface.Proofs.Decl.Exports
import ApiSurface.Proofs.Scan.Classpath
import Mathlib.Data.List.Flatten

/-!
What leaving out the members made by a compiler does to a report.

Members are chosen before their texts are put in order, and a text stands once for all members that have
it. So a text goes away only if every exported member with it was made by a compiler, and the texts that
stay are in the same order as before. Nothing else of a scan depends on the choice.
-/

namespace ApiSurface

/-- The same settings, with members made by a compiler or without them. -/
def ScannerSettings.withSynthetic (synthetic : Bool) (s : ScannerSettings) : ScannerSettings :=
  { s with includeSynthetic := synthetic }

/-! ## Blocks -/

/-- Leaving out members takes away the texts that only these have, and moves none. -/
theorem Entry.texts_ordered_without {δ : Type} (members : List δ) (entry : δ → Entry)
    (shown left : δ → Bool) :
    (ordered ((members.filter fun d => shown d && !left d).map entry)).map (·.text) =
      ((ordered ((members.filter shown).map entry)).map (·.text)).filter
        fun text => ¬ ∀ d ∈ members, shown d → (entry d).text = text → left d := by
  refine texts_eq_of_mem_iff (strictlyIncreasing_ordered _) ((strictlyIncreasing_ordered _).filter _) ?_
  intro text
  rw [List.mem_filter, mem_texts_ordered, mem_texts_ordered]
  simp only [List.mem_map, List.mem_filter, Bool.and_eq_true, Bool.not_eq_true', decide_eq_true_eq,
    exists_exists_and_eq_and]
  constructor
  · rintro ⟨d, ⟨hd, hshown, hleft⟩, rfl⟩
    refine ⟨⟨d, ⟨hd, hshown⟩, rfl⟩, fun hall => ?_⟩
    rw [hall d hd hshown rfl] at hleft
    cases hleft
  · rintro ⟨-, hall⟩
    push Not at hall
    obtain ⟨d, hd, hshown, rfl, hleft⟩ := hall
    exact ⟨d, ⟨hd, hshown, by simpa using hleft⟩, rfl⟩

namespace TypeDecl

variable (t : TypeDecl)

/-- All exported methods with that text were made by a compiler, as those with the bit of a bridge
were. -/
def IsSyntheticMethodText (text : String) : Prop :=
  ∀ m ∈ t.methods, m.visibility.isExported → m.source t.kind = text →
    m.access.has AccessFlags.syntheticBit ∨ m.access.has AccessFlags.bridgeBit

/-- All exported fields with that text were made by a compiler. The bit of a bridge, which says `volatile`
of a field, does not tell. -/
def IsSyntheticFieldText (text : String) : Prop :=
  ∀ f ∈ t.fields, f.visibility.isExported → f.source = text → f.access.has AccessFlags.syntheticBit

instance (text : String) : Decidable (t.IsSyntheticMethodText text) :=
  inferInstanceAs (Decidable (∀ m ∈ t.methods, _ → _ → _))

instance (text : String) : Decidable (t.IsSyntheticFieldText text) :=
  inferInstanceAs (Decidable (∀ f ∈ t.fields, _ → _ → _))

/-- The line of a member, every one with that text made by a compiler. -/
def IsSyntheticLine (line : Report.Line) : Prop :=
  line.kind = .method ∧ t.IsSyntheticMethodText line.text ∨
    line.kind = .field ∧ t.IsSyntheticFieldText line.text

instance : DecidablePred t.IsSyntheticLine :=
  fun line => inferInstanceAs (Decidable (line.kind = .method ∧ _ ∨ line.kind = .field ∧ _))

theorem texts_exportedMethods_false :
    (Entry.ordered ((t.exportedMethods false).map (·.entry t.kind))).map (·.text) =
      ((Entry.ordered ((t.exportedMethods true).map (·.entry t.kind))).map (·.text)).filter
        fun text => ¬ t.IsSyntheticMethodText text := by
  have hall : t.exportedMethods true = t.methods.filter (·.visibility.isExported) := by
    simp [exportedMethods]
  have hmade (text : String) : t.IsSyntheticMethodText text ↔ ∀ m ∈ t.methods,
      m.visibility.isExported → (m.entry t.kind).text = text → m.isSynthetic := by
    simp [IsSyntheticMethodText, MethodDecl.isSynthetic, MethodDecl.entry]
  simp only [hall, hmade]
  exact Entry.texts_ordered_without t.methods (·.entry t.kind) (·.visibility.isExported) (·.isSynthetic)

theorem texts_exportedFields_false :
    (Entry.ordered ((t.exportedFields false).map (·.entry))).map (·.text) =
      ((Entry.ordered ((t.exportedFields true).map (·.entry))).map (·.text)).filter
        fun text => ¬ t.IsSyntheticFieldText text := by
  have hall : t.exportedFields true = t.fields.filter (·.visibility.isExported) := by
    simp [exportedFields]
  have hmade (text : String) : t.IsSyntheticFieldText text ↔ ∀ f ∈ t.fields,
      f.visibility.isExported → f.entry.text = text → f.isSynthetic :=
    Iff.rfl
  simp only [hall, hmade]
  exact Entry.texts_ordered_without t.fields (·.entry) (·.visibility.isExported) (·.isSynthetic)

/-- Without the members made by a compiler, a block lacks their lines and is the same otherwise. -/
theorem block_false : t.block false = (t.block true).filter fun line => ¬ t.IsSyntheticLine line := by
  have hlines (kind : Report.LineKind) (entries : List Entry) :
      entries.map (Report.Line.mk kind ·.text) = (entries.map (·.text)).map (Report.Line.mk kind) := by
    rw [List.map_map]
    rfl
  simp only [block, hlines, texts_exportedMethods_false, texts_exportedFields_false, List.filter_append,
    List.filter_cons, List.filter_map]
  simp [IsSyntheticLine, Function.comp_def]

end TypeDecl

/-! ## Scans -/

namespace Scan

/-- Whether supertypes are found does not depend on which members are reported. -/
theorem exists_blocks_withSynthetic (fs : FileSystem) (s : ScannerSettings) (types : List TypeDecl)
    (u : Universe) : ∃ verdict : Except ScanError Unit, ∀ synthetic,
      blocks fs (s.withSynthetic synthetic) types u =
        verdict.map fun _ => types.flatMap (·.block synthetic) := by
  induction types generalizing u with
  | nil => exact ⟨.ok (), fun _ => rfl⟩
  | cons t rest ih =>
    cases hcheck : u.checkSupertypes fs s.strictResolution t with
    | mk result u' =>
      cases result with
      | error e =>
        refine ⟨.error e, fun synthetic => ?_⟩
        have hstrict : (s.withSynthetic synthetic).strictResolution = s.strictResolution := rfl
        rw [blocks, hstrict, hcheck]
        rfl
      | ok =>
        obtain ⟨verdict, hverdict⟩ := ih u'
        refine ⟨verdict, fun synthetic => ?_⟩
        have hstrict : (s.withSynthetic synthetic).strictResolution = s.strictResolution := rfl
        rw [blocks, hstrict, hcheck]
        dsimp only
        rw [hverdict synthetic]
        cases verdict <;> rfl

/-- With and without the members made by a compiler, a scan fails alike or gives a block for each of the
same types. -/
theorem scan_withSynthetic (fs : FileSystem) (s : ScannerSettings) (r : ScanRequest) :
    (∃ e, ∀ synthetic, ApiSurface.scan fs (s.withSynthetic synthetic) r = .error e) ∨
    ∃ u, Universe.resolve fs s.maxClassFileSize r = .ok u ∧
      ∀ synthetic, ApiSurface.scan fs (s.withSynthetic synthetic) r =
        .ok ⟨r.artifact.shown, (u.reported s.internalMarker).flatMap (·.block synthetic)⟩ := by
  cases hresolve : Universe.resolve fs s.maxClassFileSize r with
  | error e => exact .inl ⟨e, fun synthetic => scan_of_resolve_error hresolve⟩
  | ok u =>
    obtain ⟨verdict, hverdict⟩ := exists_blocks_withSynthetic fs s (u.reported s.internalMarker) u
    have hscan (synthetic : Bool) : ApiSurface.scan fs (s.withSynthetic synthetic) r =
        (verdict.map fun _ => (u.reported s.internalMarker).flatMap (·.block synthetic)).map
          (Report.mk r.artifact.shown) := by
      rw [← hverdict synthetic]
      exact scan_of_resolve_ok (s := s.withSynthetic synthetic) hresolve
    cases verdict with
    | error e => exact .inl ⟨e, hscan⟩
    | ok => exact .inr ⟨u, rfl, hscan⟩

/-- **Leaving out the members made by a compiler only takes lines away.** The scan fails with the same
error or gives a report that lacks, in the block of each type, just the lines of which every exported
member was made by a compiler. -/
theorem scan_without_synthetic (fs : FileSystem) (s : ScannerSettings) (r : ScanRequest) :
    ((∃ report, ApiSurface.scan fs (s.withSynthetic false) r = .ok report) ↔
      ∃ report, ApiSurface.scan fs (s.withSynthetic true) r = .ok report) ∧
    (∀ e, ApiSurface.scan fs (s.withSynthetic false) r = .error e ↔
      ApiSurface.scan fs (s.withSynthetic true) r = .error e) ∧
    ∀ report full, ApiSurface.scan fs (s.withSynthetic false) r = .ok report →
      ApiSurface.scan fs (s.withSynthetic true) r = .ok full →
      report.artifact = full.artifact ∧ report.lines.Sublist full.lines ∧
        ∃ u, Universe.resolve fs s.maxClassFileSize r = .ok u ∧
          full.lines = (u.reported s.internalMarker).flatMap (·.block true) ∧
          report.lines = (u.reported s.internalMarker).flatMap fun t =>
            (t.block true).filter fun line => ¬ t.IsSyntheticLine line := by
  obtain ⟨e, herror⟩ | ⟨u, hresolve, hscan⟩ := scan_withSynthetic fs s r
  · rw [herror, herror]
    exact ⟨Iff.rfl, fun _ => Iff.rfl, nofun⟩
  · rw [hscan, hscan]
    refine ⟨⟨fun _ => ⟨_, rfl⟩, fun _ => ⟨_, rfl⟩⟩, fun e => ⟨nofun, nofun⟩, ?_⟩
    rintro _ _ ⟨⟩ ⟨⟩
    simp only [TypeDecl.block_false]
    refine ⟨trivial, ?_, u, hresolve, rfl, rfl⟩
    exact List.Sublist.flatMap_right _ fun t _ => List.filter_sublist

/-- A class with a method and a bridge to it, a method that stands there twice, once made by a compiler,
and a volatile field. -/
def bridgedClass : Bytes :=
  [0xCA, 0xFE, 0xBA, 0xBE, 0, 0, 0, 61, 0, 10, 7, 0, 2, 1, 0, 1, 65, 1, 0, 3, 103, 101, 116, 1, 0, 3,
    40, 41, 73, 1, 0, 3, 40, 41, 74, 1, 0, 3, 114, 117, 110, 1, 0, 3, 40, 41, 86, 1, 0, 3, 110, 111,
    119, 1, 0, 1, 73, 0, 33, 0, 1, 0, 0, 0, 0, 0, 1, 0, 65, 0, 8, 0, 9, 0, 0, 0, 4, 0, 1, 0, 3, 0, 4,
    0, 0, 0, 65, 0, 3, 0, 5, 0, 0, 16, 1, 0, 6, 0, 7, 0, 0, 0, 1, 0, 6, 0, 7, 0, 0, 0, 0]

def bridgedFiles : FileSystem where
  root := .folder [("classes", .folder [("A.class", .file 0)])]
  current := []
  contents := #[bridgedClass.toByteArray]

/-- The bridge goes. The text that a method of the source has too stays, and so does the volatile field,
which has the bit of a bridge. -/
theorem scan_without_synthetic_bridged : ∃ report full,
    ApiSurface.scan bridgedFiles (sampleSettings.withSynthetic false) ⟨⟨"classes"⟩, []⟩ = .ok report ∧
    ApiSurface.scan bridgedFiles (sampleSettings.withSynthetic true) ⟨⟨"classes"⟩, []⟩ = .ok full ∧
    report.lines.Sublist full.lines ∧
    ⟨.method, "public long get()"⟩ ∈ full.lines ∧ ⟨.method, "public long get()"⟩ ∉ report.lines ∧
    ⟨.method, "public void run()"⟩ ∈ report.lines ∧
    ⟨.field, "public volatile int now"⟩ ∈ report.lines := by
  have hok : (ApiSurface.scan bridgedFiles (sampleSettings.withSynthetic true)
      ⟨⟨"classes"⟩, []⟩).isOk := by decide +kernel
  have hfound : (Universe.resolve bridgedFiles sampleSettings.maxClassFileSize
      ⟨⟨"classes"⟩, []⟩).toOption.any (fun u =>
        (u.reported sampleSettings.internalMarker).any (fun t =>
          (t.exportedMethods true).any (·.source t.kind = "public long get()") &&
            (t.exportedMethods false).any (·.source t.kind = "public void run()") &&
            (t.exportedFields false).any (·.source = "public volatile int now")) &&
        (u.reported sampleSettings.internalMarker).all (·.IsSyntheticMethodText "public long get()")) := by
    decide +kernel
  obtain ⟨hiff, -, hlines⟩ := scan_without_synthetic bridgedFiles sampleSettings ⟨⟨"classes"⟩, []⟩
  cases hfull : ApiSurface.scan bridgedFiles (sampleSettings.withSynthetic true) ⟨⟨"classes"⟩, []⟩ with
  | error e => rw [hfull] at hok; cases hok
  | ok full =>
    obtain ⟨report, hreport⟩ := hiff.2 ⟨full, hfull⟩
    obtain ⟨-, hsublist, u, hresolve, hfullLines, hreportLines⟩ := hlines report full hreport hfull
    rw [hresolve] at hfound
    obtain ⟨hmembers, hbridge⟩ := Bool.and_eq_true_iff.1 hfound
    obtain ⟨t, ht, hmembers⟩ := List.any_eq_true.1 hmembers
    simp only [Bool.and_eq_true, List.any_eq_true, decide_eq_true_eq] at hmembers
    obtain ⟨⟨⟨get, hget, hgetSource⟩, run, hrun, hrunSource⟩, now, hnow, hnowSource⟩ := hmembers
    have hreportBlocks := hreportLines
    simp only [← TypeDecl.block_false] at hreportBlocks
    refine ⟨report, full, hreport, rfl, hsublist, ?_, fun hmem => ?_, ?_, ?_⟩
    · rw [hfullLines]
      exact List.mem_flatMap.2
        ⟨t, ht, TypeDecl.mem_block_iff.2 (.inr (.inl ⟨get, hget, by rw [hgetSource]⟩))⟩
    · rw [hreportLines] at hmem
      obtain ⟨t', ht', hline⟩ := List.mem_flatMap.1 hmem
      have hsynthetic := of_decide_eq_true (List.all_eq_true.1 hbridge t' ht')
      exact of_decide_eq_true (List.mem_filter.1 hline).2 (.inl ⟨rfl, hsynthetic⟩)
    · rw [hreportBlocks]
      exact List.mem_flatMap.2
        ⟨t, ht, TypeDecl.mem_block_iff.2 (.inr (.inl ⟨run, hrun, by rw [hrunSource]⟩))⟩
    · rw [hreportBlocks]
      exact List.mem_flatMap.2
        ⟨t, ht, TypeDecl.mem_block_iff.2 (.inr (.inr ⟨now, hnow, by rw [hnowSource]⟩))⟩

end Scan

end ApiSurface
