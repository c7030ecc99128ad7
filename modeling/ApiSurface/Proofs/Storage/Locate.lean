import ApiSurface.Proofs.Storage.Walk

/-!
Where paths lead.

A path is a walk, and behind each link that it meets another one. What holds of every single walk holds
of the path: where it goes hangs on the places on its way, it ends at what stands there, and at a child
of its last name.
-/

namespace ApiSurface

/-- Two results that agree as far as `f` tells: the same error, or values of which `f` says the same. -/
theorem cases_of_map_eq_map {ε α β : Type} {f : α → β} {x y : Except ε α} (h : x.map f = y.map f) :
    (∃ e, x = .error e ∧ y = .error e) ∨ ∃ a b, x = .ok a ∧ y = .ok b ∧ f a = f b := by
  cases x with
  | error e =>
    cases y with
    | error e' => exact .inl ⟨e, rfl, congrArg Except.error (Except.error.inj h).symm⟩
    | ok b => cases h
  | ok a =>
    cases y with
    | error e' => cases h
    | ok b => exact .inr ⟨a, b, rfl, rfl, Except.ok.inj h⟩

namespace FileSystem

section Locate

/-! ## Links on the way -/

variable {fs fs' : FileSystem} {follow : Bool} {name : OsString} {links : Nat} {w w' : Walk}

/-- The places through which the walks behind a link go. -/
def passedOn (fs : FileSystem) (follow : Bool) : Nat → Walk → List Location
  | links + 1, .link folder target rest =>
    if target = "" then []
    else
      let names := segmentsOf target ++ rest
      fs.passed follow (startOf folder target) names ++
        passedOn fs follow links (fs.walk follow (startOf folder target) names)
  | _, _ => []

theorem walkOn_congr (h : Walk.SameEnd w w')
    (hway : ∀ l ∈ fs.passedOn follow links w, fs'.kind? l = fs.kind? l)
    (hend : ∀ t, fs.walkOn follow links w = .ok t → (∀ node ∈ t.node?, node.isFolder = false) →
      fs'.EndsAt follow t.place) :
    (fs'.walkOn follow links w').map Target.place = (fs.walkOn follow links w).map Target.place := by
  induction links generalizing w w' with
  | zero =>
    cases h with
    | done h => simp only [walkOn, Except.map, h]
    | refused e => rfl
    | link folder target rest => rfl
  | succ links ih =>
    cases h with
    | done h => simp only [walkOn, Except.map, h]
    | refused e => rfl
    | link folder target rest =>
      rw [walkOn] at hend ⊢
      rw [walkOn]
      rw [passedOn] at hway
      by_cases htarget : target = ""
      · rw [if_pos htarget, if_pos htarget]
      rw [if_neg htarget] at hend hway ⊢
      rw [if_neg htarget]
      refine ih (walk_congr (fun l hl => hway l (List.mem_append_left _ hl)) ?_)
        (fun l hl => hway l (List.mem_append_right _ hl)) hend
      intro t ht
      exact hend t (by rw [ht, walkOn])

theorem passedOn_congr (h : Walk.SameEnd w w')
    (hway : ∀ l ∈ fs.passedOn follow links w, fs'.kind? l = fs.kind? l)
    (hend : ∀ t, fs.walkOn follow links w = .ok t → (∀ node ∈ t.node?, node.isFolder = false) →
      fs'.EndsAt follow t.place) :
    fs'.passedOn follow links w' = fs.passedOn follow links w := by
  induction links generalizing w w' with
  | zero => cases h <;> rfl
  | succ links ih =>
    cases h with
    | done h => rfl
    | refused e => rfl
    | link folder target rest =>
      rw [walkOn] at hend
      rw [passedOn] at hway ⊢
      rw [passedOn]
      by_cases htarget : target = ""
      · rw [if_pos htarget, if_pos htarget]
      rw [if_neg htarget] at hend hway ⊢
      rw [if_neg htarget]
      have hwalk := fun l hl => hway l (List.mem_append_left _ hl)
      have hdone : ∀ t, fs.walk follow (startOf folder target) (segmentsOf target ++ rest) = .done t →
          (∀ node ∈ t.node?, node.isFolder = false) → fs'.EndsAt follow t.place :=
        fun t ht => hend t (by rw [ht, walkOn])
      exact congrArg₂ _ (passed_congr hwalk hdone)
        (ih (walk_congr hwalk hdone) (fun l hl => hway l (List.mem_append_right _ hl)) hend)

theorem isFolderAt_startOf {folder : Location} {text : OsString} (h : fs.IsFolderAt folder) :
    fs.IsFolderAt (startOf folder text) := by
  unfold startOf
  split
  · exact @IsFolderAt.append_left fs [] folder h
  · exact h

/-- What every walk behind a link has from the one before, the last one has. -/
theorem walkOn_induction {P : Walk → Prop} {t : Target} (hw : P w)
    (hlink : ∀ folder target rest, P (.link folder target rest) →
      P (fs.walk follow (startOf folder target) (segmentsOf target ++ rest)))
    (h : fs.walkOn follow links w = .ok t) : P (.done t) := by
  induction links generalizing w with
  | zero =>
    cases w with
    | done t' =>
      obtain rfl := Except.ok.inj h
      exact hw
    | refused e => cases h
    | link folder target rest => cases h
  | succ links ih =>
    cases w with
    | done t' =>
      obtain rfl := Except.ok.inj h
      exact hw
    | refused e => cases h
    | link folder target rest =>
      rw [walkOn] at h
      by_cases htarget : target = ""
      · rw [if_pos htarget] at h
        cases h
      rw [if_neg htarget] at h
      exact ih (hlink folder target rest hw) h

/-- Behind a link the walk goes on from a folder, by the names of the link and those that are left. -/
theorem isFound_behind {folder : Location} {target : OsString} {rest : List OsString}
    (hlink : (Walk.link folder target rest).IsFound fs) :
    (fs.walk follow (startOf folder target) (segmentsOf target ++ rest)).IsFound fs := by
  refine isFound_walk (isFolderAt_startOf hlink.1) fun name hname => ?_
  obtain hsegment | hrest := List.mem_append.1 hname
  · exact isPart_of_mem_segmentsOf hsegment
  · exact hlink.2 name hrest

theorem isFound_walkOn {t : Target} (hw : w.IsFound fs) (h : fs.walkOn follow links w = .ok t) :
    t.IsFound fs :=
  walkOn_induction (P := Walk.IsFound fs) hw (fun _ _ _ hlink => isFound_behind hlink) h

theorem endsWith_walkOn {t : Target} (hhere : name ≠ ".") (hup : name ≠ "..") (hw : w.EndsWith name)
    (h : fs.walkOn false links w = .ok t) : t.place.getLast? = some name := by
  refine walkOn_induction (P := Walk.EndsWith name) hw (fun folder target rest hlink => ?_) h
  refine endsWith_walk hhere hup ?_
  rw [List.getLast?_append, hlink]
  rfl

theorem endsBehindLinks_walkOn {t : Target} (hw : w.EndsBehindLinks fs)
    (h : fs.walkOn true links w = .ok t) (target : OsString) : t.node? ≠ some (.link target) :=
  walkOn_induction (P := Walk.EndsBehindLinks fs) hw
    (fun _ _ _ hlink => endsBehindLinks_walk (isFolderAt_startOf hlink)) h target

theorem endsAbove_walkOn {t : Target} (hw : w.EndsAbove fs) (h : fs.walkOn false links w = .ok t) :
    ∃ node, t.node? = some node ∧ node.isFolder := by
  refine walkOn_induction (P := Walk.EndsAbove fs) hw (fun folder target rest hlink => ?_) h
  refine endsAbove_walk (isFolderAt_startOf hlink.1) ?_
  rw [List.getLast?_append, hlink.2]
  rfl

theorem walkOn_follow
    (h : ∀ t target, fs.walkOn false links w = .ok t → t.node? ≠ some (.link target)) :
    fs.walkOn true links w = fs.walkOn false links w := by
  induction links generalizing w with
  | zero => cases w <;> rfl
  | succ links ih =>
    cases w with
    | done t => rfl
    | refused e => rfl
    | link folder target rest =>
      rw [walkOn] at h ⊢
      rw [walkOn]
      by_cases htarget : target = ""
      · rw [if_pos htarget, if_pos htarget]
      rw [if_neg htarget] at h ⊢
      rw [if_neg htarget, walk_follow, ih h]
      intro t target ht
      exact h t target (by rw [ht, walkOn])

/-! ## Paths -/

variable {path : Path} {t : Target}

/-- A path that can be followed at all. -/
def refusal? (path : Path) : Option IoError :=
  if path.text.toList.contains OsString.nul then some .nulInPath
  else if path.text = "" then some (.os .notFound)
  else if maxPathBytes ≤ path.text.length then some (.os .nameTooLong)
  else none

theorem locate_eq (fs : FileSystem) (follow : Bool) (path : Path) :
    fs.locate follow path =
      match refusal? path with
      | some e => .error e
      | none => (fs.walkOn follow maxLinks
          (fs.walk follow (startOf fs.current path.text) (segmentsOf path.text))).mapError .os := by
  unfold locate refusal?
  split
  · rfl
  · split
    · rfl
    · split <;> rfl

/-- The places through which a path leads: all at which a system looks, but for the last one where that
is no folder. -/
def way (fs : FileSystem) (follow : Bool) (path : Path) : List Location :=
  match refusal? path with
  | some _ => []
  | none =>
    let start := startOf fs.current path.text
    let names := segmentsOf path.text
    fs.passed follow start names ++ fs.passedOn follow maxLinks (fs.walk follow start names)

theorem locate_eq_ok : fs.locate follow path = .ok t ↔
    refusal? path = none ∧ fs.walkOn follow maxLinks
      (fs.walk follow (startOf fs.current path.text) (segmentsOf path.text)) = .ok t := by
  rw [locate_eq]
  cases refusal? path with
  | some e => simp
  | none =>
    cases fs.walkOn follow maxLinks
      (fs.walk follow (startOf fs.current path.text) (segmentsOf path.text)) <;> simp [Except.mapError]

/-- A path leads to the same place where the places on its way are of the same kind, and that place can
be an end. -/
theorem locate_congr (hcurrent : fs'.current = fs.current)
    (hway : ∀ l ∈ fs.way follow path, fs'.kind? l = fs.kind? l)
    (hend : ∀ t, fs.locate follow path = .ok t → (∀ node ∈ t.node?, node.isFolder = false) →
      fs'.EndsAt follow t.place) :
    (fs'.locate follow path).map Target.place = (fs.locate follow path).map Target.place := by
  rw [locate_eq, locate_eq, hcurrent]
  cases hrefusal : refusal? path with
  | some e => rfl
  | none =>
    unfold way at hway
    rw [hrefusal] at hway
    have hend' : ∀ t, fs.walkOn follow maxLinks
        (fs.walk follow (startOf fs.current path.text) (segmentsOf path.text)) = .ok t →
        (∀ node ∈ t.node?, node.isFolder = false) → fs'.EndsAt follow t.place :=
      fun t ht => hend t (locate_eq_ok.2 ⟨hrefusal, ht⟩)
    have hstart := walk_congr (fun l hl => hway l (List.mem_append_left _ hl)) fun t ht =>
      hend' t (by rw [ht, walkOn])
    have hon := walkOn_congr hstart (fun l hl => hway l (List.mem_append_right _ hl)) hend'
    show (Except.mapError IoError.os _).map Target.place = (Except.mapError IoError.os _).map Target.place
    revert hon
    cases fs'.walkOn follow maxLinks _ <;> cases fs.walkOn follow maxLinks _ <;>
      simp [Except.map, Except.mapError]

/-- Such a path also leads there through the same places. -/
theorem way_congr (hcurrent : fs'.current = fs.current)
    (hway : ∀ l ∈ fs.way follow path, fs'.kind? l = fs.kind? l)
    (hend : ∀ t, fs.locate follow path = .ok t → (∀ node ∈ t.node?, node.isFolder = false) →
      fs'.EndsAt follow t.place) : fs'.way follow path = fs.way follow path := by
  unfold way at hway ⊢
  rw [hcurrent]
  cases hrefusal : refusal? path with
  | some e => rfl
  | none =>
    rw [hrefusal] at hway
    have hon : ∀ t, fs.walkOn follow maxLinks
        (fs.walk follow (startOf fs.current path.text) (segmentsOf path.text)) = .ok t →
        (∀ node ∈ t.node?, node.isFolder = false) → fs'.EndsAt follow t.place :=
      fun t ht => hend t (locate_eq_ok.2 ⟨hrefusal, ht⟩)
    have hwalk := fun l hl => hway l (List.mem_append_left _ hl)
    have hdone : ∀ t, fs.walk follow (startOf fs.current path.text) (segmentsOf path.text) = .done t →
        (∀ node ∈ t.node?, node.isFolder = false) → fs'.EndsAt follow t.place :=
      fun t ht => hon t (by rw [ht, walkOn])
    exact congrArg₂ _ (passed_congr hwalk hdone)
      (passedOn_congr (walk_congr hwalk hdone) (fun l hl => hway l (List.mem_append_right _ hl)) hon)

theorem isFound_of_locate (hcurrent : fs.IsFolderAt fs.current) (h : fs.locate follow path = .ok t) :
    t.IsFound fs :=
  isFound_walkOn (isFound_walk (isFolderAt_startOf hcurrent) fun _ => isPart_of_mem_segmentsOf)
    (locate_eq_ok.1 h).2

/-- A path that ends in a name leads to a child of that name. -/
theorem getLast?_of_locate (hhere : name ≠ ".") (hup : name ≠ "..")
    (hlast : (segmentsOf path.text).getLast? = some name) (h : fs.locate false path = .ok t) :
    t.place.getLast? = some name :=
  endsWith_walkOn hhere hup (endsWith_walk hhere hup hlast) (locate_eq_ok.1 h).2

/-- A path that ends in `..` leads to a folder. -/
theorem isFolder_of_locate (hcurrent : fs.IsFolderAt fs.current)
    (hlast : (segmentsOf path.text).getLast? = some (".." : OsString)) (h : fs.locate false path = .ok t) :
    ∃ node, t.node? = some node ∧ node.isFolder :=
  endsAbove_walkOn (endsAbove_walk (isFolderAt_startOf hcurrent) hlast) (locate_eq_ok.1 h).2

/-- A path whose links are followed does not lead to a link. -/
theorem ne_link_of_locate (hcurrent : fs.IsFolderAt fs.current) (h : fs.locate true path = .ok t)
    (target : OsString) : t.node? ≠ some (.link target) :=
  endsBehindLinks_walkOn (endsBehindLinks_walk (isFolderAt_startOf hcurrent)) (locate_eq_ok.1 h).2 target

theorem locate_follow
    (h : ∀ t target, fs.locate false path = .ok t → t.node? ≠ some (.link target)) :
    fs.locate true path = fs.locate false path := by
  rw [locate_eq, locate_eq]
  cases hrefusal : refusal? path with
  | some e => rfl
  | none =>
    have hon : ∀ t target, fs.walkOn false maxLinks
        (fs.walk false (startOf fs.current path.text) (segmentsOf path.text)) = .ok t →
        t.node? ≠ some (.link target) :=
      fun t target ht => h t target (locate_eq_ok.2 ⟨hrefusal, ht⟩)
    rw [← walkOn_follow hon, walk_follow fun t target ht => hon t target (by rw [ht, walkOn])]

end Locate

/-! ## What a path leads to -/

/-- The place of what a path leads to. -/
def placeOf? (fs : FileSystem) (follow : Bool) (path : Path) : Option Location :=
  match fs.locate follow path with
  | .ok t => some t.place
  | .error _ => none

theorem placeOf?_eq_some_iff {fs : FileSystem} {follow : Bool} {path : Path} {place : Location} :
    fs.placeOf? follow path = some place ↔ ∃ t, fs.locate follow path = .ok t ∧ t.place = place := by
  rw [placeOf?]
  cases fs.locate follow path <;> simp

theorem stat_eq (fs : FileSystem) (path : Path) : fs.stat path =
    (fs.locate true path).bind fun t => match t.node? with
      | some node => .ok node
      | none => .error (.os .notFound) := by
  rw [stat]
  cases fs.locate true path with
  | error e => rfl
  | ok t => cases t <;> rfl

theorem exists_target_of_stat {fs : FileSystem} {path : Path} {node : Node} (h : fs.stat path = .ok node) :
    ∃ t, fs.locate true path = .ok t ∧ t.node? = some node := by
  rw [stat_eq] at h
  cases hlocate : fs.locate true path with
  | error e =>
    rw [hlocate] at h
    cases h
  | ok t =>
    rw [hlocate] at h
    refine ⟨t, rfl, ?_⟩
    cases hnode : t.node? with
    | none => simp [Except.bind, hnode] at h
    | some found =>
      simp only [Except.bind, hnode] at h
      rw [Except.ok.inj h]

/-! ## What the same can be read from -/

/-- The same stands at a place in both, files by their content and not by their numbers. -/
structure SameAt (fs fs' : FileSystem) (place : Location) : Prop where
  kind? : fs'.kind? place = fs.kind? place
  content : ∀ id id', fs.get? place = some (.file id) → fs'.get? place = some (.file id') →
    fs'.content id' = fs.content id

theorem contentOf_congr {fs fs' : FileSystem} {node node' : Node} (hkind : node'.kind = node.kind)
    (hcontent : ∀ id id', node = .file id → node' = .file id' → fs'.content id' = fs.content id) :
    fs'.contentOf node' = fs.contentOf node := by
  cases node <;> cases node' <;> simp only [Node.kind, reduceCtorEq] at hkind
  case file.file id id' => rw [contentOf, contentOf, hcontent id id' rfl rfl]
  all_goals rfl

/-- Where everything is the same, the same can be read along every path. -/
theorem readFile_congr {fs fs' : FileSystem} (hfolder : fs.IsFolderAt fs.current)
    (hcurrent : fs'.current = fs.current) (hsame : ∀ place, SameAt fs fs' place) (path : Path) :
    fs'.readFile path = fs.readFile path := by
  have hfolder' : fs'.IsFolderAt fs'.current := by
    rw [hcurrent]
    rwa [isFolderAt_iff_kind?, (hsame fs.current).kind?, ← isFolderAt_iff_kind?]
  have hplace : (fs'.locate true path).map Target.place = (fs.locate true path).map Target.place := by
    refine locate_congr hcurrent (fun place _ => (hsame place).kind?) fun t ht hnode => ?_
    intro node' hnode'
    have hkind := (hsame t.place).kind?
    rw [FileSystem.kind?, FileSystem.kind?, hnode', (isFound_of_locate hfolder ht).get?] at hkind
    obtain ⟨node, hfound, hkindEq⟩ := Option.map_eq_some_iff.1 hkind.symm
    refine ⟨Bool.eq_false_iff.2 fun hisFolder => ?_, fun _ target hlink => ?_⟩
    · rw [Node.isFolder_iff_kind, ← hkindEq, ← Node.isFolder_iff_kind, hnode node hfound] at hisFolder
      cases hisFolder
    · subst hlink
      refine ne_link_of_locate hfolder ht target ?_
      cases node <;> simp_all [Node.kind]
  rw [readFile, readFile, stat_eq, stat_eq]
  obtain ⟨e, hfs, hstart⟩ | ⟨t', t, hfs, hstart, heq⟩ := cases_of_map_eq_map hplace
  · rw [hfs, hstart]
    rfl
  · rw [hfs, hstart]
    have hget := (isFound_of_locate hfolder hstart).get?
    have hget' := (isFound_of_locate hfolder' hfs).get?
    rw [heq] at hget'
    obtain ⟨hkind, hcontent⟩ := hsame t.place
    rw [FileSystem.kind?, FileSystem.kind?, hget, hget'] at hkind
    cases hnode : t.node? with
    | none =>
      rw [hnode, Option.map_none, Option.map_eq_none_iff] at hkind
      simp only [Except.bind, hnode, hkind, bind]
    | some node =>
      rw [hnode, Option.map_some] at hkind
      obtain ⟨node', hnode', hkindEq⟩ := Option.map_eq_some_iff.1 hkind
      simp only [Except.bind, hnode, hnode', bind]
      refine contentOf_congr hkindEq fun id id' hid hid' => hcontent id id' ?_ ?_
      · rw [hget, hnode, hid]
      · rw [hget', hnode', hid']

end FileSystem

end ApiSurface
