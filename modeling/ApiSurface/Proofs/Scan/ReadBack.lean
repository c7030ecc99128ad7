import ApiSurface.Proofs.Decl.LineBreaks
import ApiSurface.Proofs.Report.ReadBack
import ApiSurface.Proofs.Scan.Report

/-!
Reading back the report of a scan.

The lines of a report come from the class files of the artifact. When no text of these has a line feed,
the report can be read back from the file that it is written to. The names of a class file may have line
feeds, and those go into the text as they are, so that one line of the report can pass for two.
-/

namespace ApiSurface

open Scan

/-! ## Where the types of a scan come from -/

namespace Universe

variable {fs : FileSystem} {max : Nat} {c : Container}

/-- When all turns of the loop have passed, all entries have been read. -/
theorem exists_contents_of_foldlM {entries : List ClassEntry} {ds ds' : List Definition}
    (h : entries.foldlM (fun ds e => do return define ds e.name (← (c.read fs e.name max).1)) ds
      = .ok ds') :
    ∃ contents, List.Forall₂ (fun e content => (c.read fs e.name max).1 = .ok content) entries contents := by
  induction entries generalizing ds with
  | nil => exact ⟨[], .nil⟩
  | cons e rest ih =>
    rw [List.foldlM_cons] at h
    cases hread : (c.read fs e.name max).1 with
    | error failure => rw [hread] at h; cases h
    | ok content =>
      rw [hread] at h
      obtain ⟨contents, hcontents⟩ := ih h
      exact ⟨content :: contents, .cons hread hcontents⟩

/-- The types of the artifact are those that the contents of its entries declare. -/
theorem exists_contents_of_resolve {r : ScanRequest} {u : Universe} (h : resolve fs max r = .ok u) :
    ∃ c c' entries contents, Container.ofPath fs r.artifact = .ok c ∧
      c.classEntries fs = (.ok entries, c') ∧
      List.Forall₂ (fun e content => (c'.read fs e.name max).1 = .ok content) entries contents ∧
      typesOf u.definitions = declarations [] contents := by
  rw [resolve] at h
  cases hopen : Container.ofPath fs r.artifact with
  | error e => rw [hopen] at h; cases h
  | ok c =>
    rw [hopen] at h
    cases hlist : c.classEntries fs with
    | mk result c' =>
      cases result with
      | error e => simp only [hlist, bind, Except.bind] at h; cases h
      | ok entries =>
        cases hds : definitionsOf fs max c' entries with
        | error e => simp only [hlist, hds, bind, Except.bind] at h; cases h
        | ok ds =>
          obtain ⟨contents, hread⟩ := exists_contents_of_foldlM hds
          obtain ⟨ds', hds', htypes⟩ := definitionsOf_eq_ok hread
          obtain rfl := Except.ok.inj (hds.symm.trans hds')
          refine ⟨c, c', entries, contents, rfl, hlist, hread, ?_⟩
          cases hdependencies : dependenciesOf fs r.classpath with
          | error e => simp only [hlist, hds, hdependencies, bind, Except.bind] at h; cases h
          | ok dependencies =>
            simp only [hlist, hds, hdependencies, bind, Except.bind] at h
            obtain rfl := Except.ok.inj h
            exact htypes

end Universe

namespace Scan

variable {fs : FileSystem} {s : ScannerSettings} {r : ScanRequest}

theorem blocks_eq_ok {types : List TypeDecl} {u : Universe} {lines : List Report.Line}
    (h : blocks fs s types u = .ok lines) : lines = types.flatMap (·.block s.includeSynthetic) := by
  induction types generalizing u lines with
  | nil => exact (Except.ok.inj h).symm
  | cons t rest ih =>
    rw [blocks] at h
    cases hcheck : u.checkSupertypes fs s.strictResolution t with
    | mk result u' =>
      rw [hcheck] at h
      cases result with
      | error e => cases h
      | ok =>
        dsimp only at h
        cases hrest : blocks fs s rest u' with
        | error e => rw [hrest] at h; cases h
        | ok more =>
          rw [hrest] at h
          rw [List.flatMap_cons, ← ih hrest]
          exact (Except.ok.inj h).symm

/-- The class file is what an entry of the artifact that may hold a class has in it. -/
def HasClassFile (fs : FileSystem) (s : ScannerSettings) (r : ScanRequest) (c : ClassFile) : Prop :=
  ∃ container container' entries, Container.ofPath fs r.artifact = .ok container ∧
    container.classEntries fs = (.ok entries, container') ∧
    ∃ e ∈ entries, ∃ content, (container'.read fs e.name s.maxClassFileSize).1 = .ok content ∧
      ClassFile.decode content = .ok c

theorem exists_classFile_of_declared? {content : Bytes} {t : TypeDecl} (h : declared? content = some t) :
    ∃ c, ClassFile.decode content = .ok c ∧ TypeDecl.ofClassFile c = .ok t := by
  rw [declared?, TypeDecl.ofBytes] at h
  cases hdecode : ClassFile.decode content with
  | error e => rw [hdecode] at h; cases h
  | ok c =>
    rw [hdecode] at h
    cases htype : TypeDecl.ofClassFile c with
    | error e => simp only [htype, Except.mapError, bind, Except.bind, Except.toOption] at h; cases h
    | ok t' =>
      simp only [htype, Except.mapError, bind, Except.bind, Except.toOption] at h
      obtain rfl := Option.some.inj h
      exact ⟨c, rfl, htype⟩

/-- Each line of a report stands in the block of a class file of the artifact. -/
theorem exists_classFile_of_mem_lines {report : Report} (h : ApiSurface.scan fs s r = .ok report) :
    ∀ line ∈ report.lines, ∃ c t, HasClassFile fs s r c ∧ TypeDecl.ofClassFile c = .ok t ∧
      line ∈ t.block s.includeSynthetic := by
  intro line hline
  rw [ApiSurface.scan] at h
  cases hresolve : Universe.resolve fs s.maxClassFileSize r with
  | error e => rw [hresolve] at h; cases h
  | ok u =>
    cases hblocks : blocks fs s (u.reported s.internalMarker) u with
    | error e => simp only [hresolve, hblocks, bind, Except.bind] at h; cases h
    | ok lines =>
      simp only [hresolve, hblocks, bind, Except.bind] at h
      obtain rfl := Except.ok.inj h
      obtain ⟨container, container', entries, contents, hopen, hlist, hread, htypes⟩ :=
        Universe.exists_contents_of_resolve hresolve
      rw [show lines = _ from blocks_eq_ok hblocks] at hline
      obtain ⟨t, ht, hmem⟩ := List.mem_flatMap.1 hline
      have hdeclared := (List.mem_filter.1 ht).1
      rw [htypes, mem_declarations] at hdeclared
      obtain ⟨content, hcontent, hof⟩ :=
        List.mem_filterMap.1 (List.mem_of_find?_eq_some hdeclared.2)
      obtain ⟨c, hdecode, hclass⟩ := exists_classFile_of_declared? hof
      have hentry : ∃ e ∈ entries, (container'.read fs e.name s.maxClassFileSize).1 = .ok content := by
        clear htypes hlist hdeclared
        induction hread with
        | nil => cases hcontent
        | @cons e first entries contents hfirst _ ih =>
          obtain rfl | hrest := List.mem_cons.1 hcontent
          · exact ⟨e, List.mem_cons_self, hfirst⟩
          · obtain ⟨e', he', hread'⟩ := ih hrest
            exact ⟨e', List.mem_cons_of_mem _ he', hread'⟩
      obtain ⟨e, he, hread⟩ := hentry
      exact ⟨c, t, ⟨container, container', entries, hopen, hlist, e, he, content, hread, hdecode⟩,
        hclass, hmem⟩

/-- **The report that a scan writes can be read back line by line exactly when no line has a line feed
in its text.** The file then has one line for each type and each member. This is so whenever no text of
a class file of the artifact has a line feed. -/
theorem readBack_scan {report : Report} (h : ApiSurface.scan fs s r = .ok report) :
    report.writeTo ⟨[], none⟩ = (⟨Bytes.ofText report.text, none⟩, .ok ()) ∧
    (Report.readBack? report.text = some report.lines ↔
      ∀ line ∈ report.lines, IsOneLine line.text) ∧
    ((Report.pieces report.text).length = report.typeCount + report.memberCount ↔
      ∀ line ∈ report.lines, IsOneLine line.text) ∧
    ((∀ c, HasClassFile fs s r c → ∀ text ∈ c.texts, IsOneLine text) →
      ∀ line ∈ report.lines, IsOneLine line.text) := by
  refine ⟨report.writeTo_unlimited [], report.readBack?_text_iff, ?_, fun hclasses line hline => ?_⟩
  · rw [report.typeCount_add_memberCount]
    exact report.length_pieces_text_iff
  · obtain ⟨c, t, hc, ht, hmem⟩ := exists_classFile_of_mem_lines h line hline
    exact TypeDecl.isOneLine_of_mem_block ht (hclasses c hc) line hmem

/-- Without strict resolution a scan is the blocks of the surface. -/
theorem scan_eq_ok {container container' : Container} {entries : List ClassEntry}
    {contents : List Bytes} (hvalid : s.validate = .ok ()) (hstrict : s.strictResolution = false)
    (hopen : Container.ofPath fs r.artifact = .ok container)
    (hlist : container.classEntries fs = (.ok entries, container'))
    (hread : List.Forall₂ (fun e content => (container'.read fs e.name s.maxClassFileSize).1 = .ok content)
      entries contents) (hclasspath : r.classpath = []) :
    ApiSurface.scan fs s r = .ok ⟨r.artifact.shown,
      (surface s.internalMarker contents).flatMap (·.block s.includeSynthetic)⟩ := by
  obtain ⟨u, hresolve, htypes⟩ := Universe.resolve_eq_ok hopen hlist hread (by simp [hclasspath])
  have hreported : u.reported s.internalMarker = surface s.internalMarker contents := by
    rw [Universe.reported, htypes, surface, surfaceAfter]
    refine List.filter_congr fun t _ => ?_
    have hinternal := isInternal_iff (s.internalMarker_ne_empty hvalid) t
    rw [Bool.eq_iff_iff]
    simpa using not_congr hinternal
  simp only [ApiSurface.scan, hresolve, blocks_lenient hstrict, hreported, bind, Except.bind]
  rfl

/-- A folder with one class in it. -/
def folderOf (content : Bytes) : FileSystem where
  root := .folder [("classes", .folder [("A.class", .file 0)])]
  current := []
  contents := #[content.toByteArray]

variable {content : Bytes}

theorem classEntries_folderOf : (Container.folder ⟨"classes"⟩).classEntries (folderOf content) =
    (.ok [⟨"A.class", content.length⟩], .folder ⟨"classes"⟩) := by
  have hfiles : (folderOf content).filesBelow ⟨"classes"⟩ = .ok [(["A.class"], 0)] := by
    have hstat : (folderOf content).stat ⟨"classes"⟩ = .ok (.folder [("A.class", .file 0)]) := rfl
    rw [FileSystem.filesBelow, hstat]
    show Except.ok (Node.filesBelow _) = _
    rw [Node.filesBelow, List.mergeSort_of_pairwise (by decide +kernel)]
    rfl
  have hkept : [ClassEntry.mk "A.class" content.length].filter
      (fun e => EntryName.isCandidate e.name) = [⟨"A.class", content.length⟩] :=
    List.filter_cons_of_pos (by
      show EntryName.isCandidate "A.class" = true
      decide +kernel)
  rw [Container.classEntries, Container.folderEntries, hfiles]
  exact congrArg (fun entries => (Except.ok entries, Container.folder ⟨"classes"⟩)) hkept

theorem read_folderOf (hlen : content.length ≤ sampleSettings.maxClassFileSize) :
    ((Container.folder ⟨"classes"⟩).read (folderOf content) "A.class"
      sampleSettings.maxClassFileSize).1 = .ok content := by
  have hstat : (folderOf content).stat ((Path.mk "classes").join ⟨"A.class"⟩) = .ok (.file 0) := rfl
  have hsize : (folderOf content).sizeOf (.file 0) = content.length := rfl
  have hcontent : (folderOf content).contentOf (.file 0) = .ok content := rfl
  simp only [Container.read, Container.readUnpacked, hstat, hsize, hcontent, Container.within,
    Except.mapError, bind, Except.bind, if_neg (Nat.not_lt.2 hlen)]

theorem scan_folderOf (hlen : content.length ≤ sampleSettings.maxClassFileSize) :
    ApiSurface.scan (folderOf content) sampleSettings ⟨⟨"classes"⟩, []⟩ =
      .ok ⟨"classes", (surface sampleSettings.internalMarker [content]).flatMap
        (·.block sampleSettings.includeSynthetic)⟩ :=
  scan_eq_ok (by decide +kernel) rfl rfl classEntries_folderOf (.cons (read_folderOf hlen) .nil) rfl

theorem decode_of_hasClassFile (hlen : content.length ≤ sampleSettings.maxClassFileSize) {c : ClassFile}
    (h : HasClassFile (folderOf content) sampleSettings ⟨⟨"classes"⟩, []⟩ c) :
    ClassFile.decode content = .ok c := by
  obtain ⟨container, container', entries, hopen, hlist, e, he, found, hread, hdecode⟩ := h
  obtain rfl : Container.folder ⟨"classes"⟩ = container := Except.ok.inj hopen
  rw [classEntries_folderOf] at hlist
  obtain ⟨hentries, rfl⟩ := Prod.mk.inj hlist
  obtain rfl := Except.ok.inj hentries
  obtain rfl := List.mem_singleton.1 he
  obtain rfl := Except.ok.inj ((read_folderOf hlen).symm.trans hread)
  exact hdecode

theorem readBack_plain : ∃ report,
    ApiSurface.scan (folderOf plainClass) sampleSettings ⟨⟨"classes"⟩, []⟩ = .ok report ∧
      Report.readBack? report.text = some report.lines := by
  have hlen : plainClass.length ≤ sampleSettings.maxClassFileSize := by decide +kernel
  have hscan := scan_folderOf hlen
  obtain ⟨-, hread, -, hclasses⟩ := readBack_scan hscan
  refine ⟨_, hscan, hread.2 (hclasses fun c hc => ?_)⟩
  have hdecode : ClassFile.decode plainClass = .ok ⟨0, 61, ⟨0x21⟩, "A", none, [], none, [], []⟩ := by
    decide +kernel
  obtain rfl := Except.ok.inj (hdecode.symm.trans (decode_of_hasClassFile hlen hc))
  decide

/-- A class whose one method is called `a()`, then a line feed, then what looks like the line of another
method. -/
def forgedClass : Bytes :=
  [0xCA, 0xFE, 0xBA, 0xBE, 0, 0, 0, 61, 0, 5, 1, 0, 1, 65, 7, 0, 1]
    ++ [1, 0, 21] ++ Bytes.ofText "a()\nM:  public void b" ++ [1, 0, 3, 40, 41, 86]
    ++ [0, 0x21, 0, 2, 0, 0, 0, 0, 0, 0, 0, 1, 0, 1, 0, 3, 0, 4, 0, 0, 0, 0]

/-- **A name can forge a line.** The report has a line for one method, and its text reads as two. -/
theorem scan_forged : ∃ report,
    ApiSurface.scan (folderOf forgedClass) sampleSettings ⟨⟨"classes"⟩, []⟩ = .ok report ∧
      ⟨.method, "public void a()\nM:  public void b()"⟩ ∈ report.lines ∧
      Report.readBack? report.text ≠ some report.lines := by
  have hfound : (surface sampleSettings.internalMarker [forgedClass]).any (fun t =>
      (t.exportedMethods true).any fun d =>
        d.source t.kind = "public void a()\nM:  public void b()") = true := by
    decide +kernel
  obtain ⟨t, ht, hmethods⟩ := List.any_eq_true.1 hfound
  obtain ⟨d, hd, hsource⟩ := List.any_eq_true.1 hmethods
  have hline : ⟨.method, "public void a()\nM:  public void b()"⟩ ∈ t.block true :=
    TypeDecl.mem_block_iff.2 (.inr (.inl ⟨d, hd, by rw [of_decide_eq_true hsource]⟩))
  refine ⟨_, scan_folderOf (by decide +kernel), List.mem_flatMap.2 ⟨t, ht, hline⟩, fun hread => ?_⟩
  exact absurd ((Report.readBack?_text_iff _).1 hread _ (List.mem_flatMap.2 ⟨t, ht, hline⟩))
    (by decide)

end Scan

end ApiSurface
