import ApiSurface.Signature.Parser
import Mathlib.Data.List.Chain

/-!
Types in written form, and which types have one.

The written form is that of descriptors and signatures. A type is well formed for one of the two when
its names are free of the characters that end or separate names, its parts are of the kinds that their
places ask for, and no way from the whole type to one of its parts passes too many arrays or too many
lists of type arguments. Nothing here refers to a parser.
-/

namespace ApiSurface

open Signature (Form)
open Signature.Parser (Path maxDimensions maxNesting)

/-! ## Written forms -/

/-- A name with `/` between the packages. -/
def internalName (name : String) : List Char :=
  name.toList.map fun c => if c = '.' then '/' else c

/-- The name of one class of a nest. Only the outermost has a package. -/
def writtenName (isOutermost : Bool) (name : String) : List Char :=
  if isOutermost then internalName name else name.toList

/-- A name is written with its characters, but for those between packages. -/
theorem mem_writtenName {isOutermost : Bool} {name : String} {c : Char} (h : c ∈ name.toList)
    (hc : c ≠ '.') : c ∈ writtenName isOutermost name := by
  rw [writtenName]
  split
  · exact List.mem_map.2 ⟨c, h, if_neg hc⟩
  · exact h

mutual

def JavaType.written : JavaType → List Char
  | .primitive type => [type.tag]
  | .object outermost inner => 'L' :: (outermost.written true ++ (writtenInner inner ++ [';']))
  | .variable name => 'T' :: (name.toList ++ [';'])
  | .array element => '[' :: element.written

def Segment.written : Bool → Segment → List Char
  | isOutermost, .mk name [] => writtenName isOutermost name
  | isOutermost, .mk name (arg :: args) =>
    writtenName isOutermost name ++ '<' :: (arg.written ++ (writtenArgs args ++ ['>']))

def TypeArg.written : TypeArg → List Char
  | .any => ['*']
  | .upper bound => '+' :: bound.written
  | .lower bound => '-' :: bound.written
  | .exactly type => type.written

def writtenInner : List Segment → List Char
  | [] => []
  | s :: rest => '.' :: (s.written false ++ writtenInner rest)

def writtenArgs : List TypeArg → List Char
  | [] => []
  | a :: rest => a.written ++ writtenArgs rest

end

/-- A list of type arguments in its brackets. -/
def writtenArgList (args : List TypeArg) : List Char :=
  '<' :: (args.flatMap TypeArg.written ++ ['>'])

theorem writtenInner_eq (inner : List Segment) :
    writtenInner inner = inner.flatMap fun s => '.' :: s.written false := by
  induction inner with
  | nil => rfl
  | cons s rest ih => simp [writtenInner, ih]

theorem writtenArgs_eq (args : List TypeArg) : writtenArgs args = args.flatMap TypeArg.written := by
  induction args with
  | nil => rfl
  | cons a rest ih => simp [writtenArgs, ih]

theorem Segment.written_nil (isOutermost : Bool) (name : String) :
    (Segment.mk name []).written isOutermost = writtenName isOutermost name := by
  rw [Segment.written]

theorem Segment.written_args (isOutermost : Bool) (name : String) {args : List TypeArg}
    (h : args ≠ []) :
    (Segment.mk name args).written isOutermost
      = writtenName isOutermost name ++ writtenArgList args := by
  cases args with
  | nil => exact absurd rfl h
  | cons a rest => simp [Segment.written, writtenArgList, writtenArgs_eq]

/-- The declaration of a type variable with its bounds. -/
def TypeParam.written (p : TypeParam) : List Char :=
  p.name.toList ++ ':' :: ((p.classBound.map JavaType.written).getD []
    ++ p.interfaceBounds.flatMap fun t => ':' :: t.written)

/-- Type parameters in their brackets, if there are any. -/
def writtenTypeParams (params : List TypeParam) : List Char :=
  if params.isEmpty then [] else '<' :: (params.flatMap TypeParam.written ++ ['>'])

def ReturnType.written : ReturnType → List Char
  | .void => ['V']
  | .value type => type.written

def MethodType.written (m : MethodType) : List Char :=
  writtenTypeParams m.typeParams ++ '(' :: (m.params.flatMap JavaType.written ++ ')' ::
    (m.result.written ++ m.throws.flatMap fun t => '^' :: t.written))

def ClassType.written (c : ClassType) : List Char :=
  writtenTypeParams c.typeParams ++ (c.superclass.written ++ c.interfaces.flatMap JavaType.written)

/-! ## Names -/

/-- The name of a type variable, a type parameter or a nested class. -/
def IsIdentifier (name : String) : Prop :=
  name.toList ≠ [] ∧ ∀ c ∈ name.toList, c ∉ ['.', ';', '[', '/', '<', '>', ':']

/-- The name of a class with its package; `.` stands between the packages. -/
def IsClassName (name : String) : Prop :=
  name.toList ≠ [] ∧ ∀ c ∈ name.toList, c ∉ [';', '[', '/', '<', '>', ':']

/-- The name of one class of a nest. -/
def IsNestName (isOutermost : Bool) (name : String) : Prop :=
  if isOutermost then IsClassName name else IsIdentifier name

/-! ## Shapes -/

/-- Not primitive. -/
def JavaType.IsReference : JavaType → Prop
  | .primitive _ => False
  | _ => True

/-- A class. -/
def JavaType.IsObject : JavaType → Prop
  | .object .. => True
  | _ => False

theorem JavaType.isReference_of_isObject : ∀ {t : JavaType}, t.IsObject → t.IsReference
  | .object .., _ => trivial

/-- The character that the written form begins with. -/
def JavaType.mark : JavaType → Char
  | .primitive type => type.tag
  | .object .. => 'L'
  | .variable _ => 'T'
  | .array _ => '['

theorem JavaType.exists_written (t : JavaType) : ∃ cs, t.written = t.mark :: cs := by
  cases t with
  | primitive | object | «variable» | array => exact ⟨_, by rw [JavaType.written]; rfl⟩

theorem JavaType.head?_written (t : JavaType) (rest : List Char) :
    (t.written ++ rest).head? = some t.mark := by
  obtain ⟨cs, h⟩ := t.exists_written
  rw [h]
  rfl

theorem TypeArg.written_ne_nil (a : TypeArg) : a.written ≠ [] := by
  cases a with
  | any => simp [TypeArg.written]
  | upper bound => simp [TypeArg.written]
  | lower bound => simp [TypeArg.written]
  | exactly type =>
    obtain ⟨cs, h⟩ := type.exists_written
    simp [TypeArg.written, h]

theorem JavaType.mark_of_isReference : ∀ {t : JavaType}, t.IsReference → t.mark ∈ ['L', 'T', '[']
  | .object .., _ => by simp [mark]
  | .variable _, _ => by simp [mark]
  | .array _, _ => by simp [mark]

/-- A letter of a primitive type begins nothing else. -/
theorem Primitive.tag_notMem (type : Primitive) : type.tag ∉ ['L', 'T', '['] := by
  cases type <;> decide

theorem Primitive.tag_injective {p q : Primitive} (h : p.tag = q.tag) : p = q :=
  Option.some.inj (by rw [← ofTag?_tag p, h, ofTag?_tag])

theorem JavaType.eq_primitive_of_mark {t : JavaType} {type : Primitive} (h : t.mark = type.tag) :
    t = .primitive type := by
  have hmark := type.tag_notMem
  rw [← h] at hmark
  cases t with
  | primitive other => rw [Primitive.tag_injective h]
  | object => simp [mark] at hmark
  | «variable» => simp [mark] at hmark
  | array => simp [mark] at hmark

/-- No type begins with a character that stands for no type. -/
theorem JavaType.mark_ne {c : Char} (htag : Primitive.ofTag? c = none) (hc : c ∉ ['L', 'T', '['])
    (t : JavaType) : t.mark ≠ c := by
  rintro rfl
  cases t with
  | primitive type => simp [mark] at htag
  | object | «variable» | array => simp [mark] at hc

theorem JavaType.isObject_of_mark {t : JavaType} (h : t.mark = 'L') : t.IsObject := by
  cases t with
  | primitive type => exact absurd (by rw [← h]; simp [mark]) type.tag_notMem
  | object => trivial
  | «variable» => simp [mark] at h
  | array => simp [mark] at h

theorem JavaType.exists_variable_of_mark {t : JavaType} (h : t.mark = 'T') :
    ∃ name, t = .variable name := by
  cases t with
  | primitive type => exact absurd (by rw [← h]; simp [mark]) type.tag_notMem
  | object => simp [mark] at h
  | «variable» name => exact ⟨name, rfl⟩
  | array => simp [mark] at h

mutual

/-- The names and the kinds of the parts are those that the form allows. -/
inductive JavaType.Proper (form : Form) : JavaType → Prop
  | primitive (type : Primitive) : JavaType.Proper form (.primitive type)
  | object {outermost : Segment} {inner : List Segment} : Segment.Proper form true outermost →
      (inner ≠ [] → form = .generic) → (∀ s ∈ inner, Segment.Proper form false s) →
      JavaType.Proper form (.object outermost inner)
  | typeVariable {name : String} : form = .generic → IsIdentifier name →
      JavaType.Proper form (.variable name)
  | array {element : JavaType} : JavaType.Proper form element →
      JavaType.Proper form (.array element)

inductive Segment.Proper (form : Form) : Bool → Segment → Prop
  | mk {isOutermost : Bool} {name : String} {args : List TypeArg} :
      IsNestName isOutermost name →
      (args ≠ [] → form = .generic) → (∀ a ∈ args, TypeArg.Proper form a) →
      Segment.Proper form isOutermost (.mk name args)

inductive TypeArg.Proper (form : Form) : TypeArg → Prop
  | any : TypeArg.Proper form .any
  | upper {bound : JavaType} : bound.IsReference → JavaType.Proper form bound →
      TypeArg.Proper form (.upper bound)
  | lower {bound : JavaType} : bound.IsReference → JavaType.Proper form bound →
      TypeArg.Proper form (.lower bound)
  | exactly {type : JavaType} : type.IsReference → JavaType.Proper form type →
      TypeArg.Proper form (.exactly type)

end

/-! ## Limits -/

namespace Signature.Parser.Path

/-- One more array has been entered. -/
def enterArray (path : Path) : Path :=
  { path with dimensions := path.dimensions + 1 }

/-- One more list of type arguments has been entered. -/
def enterArgs (path : Path) : Path :=
  { path with nesting := path.nesting + 1 }

/-- No more has been entered than may be. -/
structure Within (path : Path) : Prop where
  dimensions : path.dimensions ≤ 255
  nesting : path.nesting ≤ 64

end Signature.Parser.Path

mutual

/-- The ways from the whole to the parts of a type, where `path` has been entered before. -/
def JavaType.paths (path : Path) : JavaType → List Path
  | .primitive _ => [path]
  | .object outermost inner => path :: (outermost.paths path ++ pathsOfInner path inner)
  | .variable _ => [path]
  | .array element => element.paths path.enterArray

def Segment.paths (path : Path) : Segment → List Path
  | .mk _ args => pathsOfArgs path.enterArgs args

def TypeArg.paths (path : Path) : TypeArg → List Path
  | .any => [path]
  | .upper bound => bound.paths path
  | .lower bound => bound.paths path
  | .exactly type => type.paths path

def pathsOfInner (path : Path) : List Segment → List Path
  | [] => []
  | s :: rest => s.paths path ++ pathsOfInner path rest

def pathsOfArgs (path : Path) : List TypeArg → List Path
  | [] => []
  | a :: rest => a.paths path ++ pathsOfArgs path rest

end

/-! ## Well-formed types -/

variable {form : Form} {path : Path}

/-- The type can be denoted in a place where `path` has been entered. -/
def JavaType.Fits (form : Form) (path : Path) (t : JavaType) : Prop :=
  t.Proper form ∧ ∀ p ∈ t.paths path, p.Within

def Segment.Fits (form : Form) (path : Path) (isOutermost : Bool) (s : Segment) : Prop :=
  s.Proper form isOutermost ∧ ∀ p ∈ s.paths path, p.Within

def TypeArg.Fits (form : Form) (path : Path) (a : TypeArg) : Prop :=
  a.Proper form ∧ ∀ p ∈ a.paths path, p.Within

theorem mem_pathsOfInner {inner : List Segment} {p : Path} :
    p ∈ pathsOfInner path inner ↔ ∃ s ∈ inner, p ∈ s.paths path := by
  induction inner with
  | nil => simp [pathsOfInner]
  | cons s rest ih => simp [pathsOfInner, ih]

theorem mem_pathsOfArgs {args : List TypeArg} {p : Path} :
    p ∈ pathsOfArgs path args ↔ ∃ a ∈ args, p ∈ a.paths path := by
  induction args with
  | nil => simp [pathsOfArgs]
  | cons a rest ih => simp [pathsOfArgs, ih]

theorem JavaType.fits_primitive {type : Primitive} :
    (JavaType.primitive type).Fits form path ↔ path.Within := by
  simp [JavaType.Fits, JavaType.paths, JavaType.Proper.primitive]

theorem JavaType.fits_variable {name : String} :
    (JavaType.variable name).Fits form path ↔ path.Within ∧ form = .generic ∧ IsIdentifier name := by
  constructor
  · rintro ⟨h, hpaths⟩
    cases h with
    | typeVariable hform hname => exact ⟨hpaths path (by simp [JavaType.paths]), hform, hname⟩
  · rintro ⟨hpath, hform, hname⟩
    exact ⟨.typeVariable hform hname, by simpa [JavaType.paths] using hpath⟩

theorem JavaType.fits_array {element : JavaType} :
    (JavaType.array element).Fits form path ↔ element.Fits form path.enterArray := by
  constructor
  · rintro ⟨h, hpaths⟩
    cases h with
    | array helement => exact ⟨helement, by simpa [JavaType.paths] using hpaths⟩
  · rintro ⟨helement, hpaths⟩
    exact ⟨.array helement, by simpa [JavaType.paths] using hpaths⟩

theorem JavaType.fits_object {outermost : Segment} {inner : List Segment} :
    (JavaType.object outermost inner).Fits form path ↔ path.Within ∧ outermost.Fits form path true ∧
      (inner ≠ [] → form = .generic) ∧ ∀ s ∈ inner, s.Fits form path false := by
  constructor
  · rintro ⟨h, hpaths⟩
    simp only [JavaType.paths, List.mem_cons, List.mem_append, mem_pathsOfInner] at hpaths
    cases h with
    | object ho hform hinner =>
      exact ⟨hpaths path (.inl rfl), ⟨ho, fun p hp => hpaths p (.inr (.inl hp))⟩, hform,
        fun s hs => ⟨hinner s hs, fun p hp => hpaths p (.inr (.inr ⟨s, hs, hp⟩))⟩⟩
  · rintro ⟨hpath, ⟨ho, hopaths⟩, hform, hinner⟩
    refine ⟨.object ho hform fun s hs => (hinner s hs).1, fun p hp => ?_⟩
    simp only [JavaType.paths, List.mem_cons, List.mem_append, mem_pathsOfInner] at hp
    rcases hp with rfl | hp | ⟨s, hs, hp⟩
    · exact hpath
    · exact hopaths p hp
    · exact (hinner s hs).2 p hp

theorem Segment.fits_mk {isOutermost : Bool} {name : String} {args : List TypeArg} :
    (Segment.mk name args).Fits form path isOutermost ↔
      IsNestName isOutermost name ∧
      (args ≠ [] → form = .generic) ∧ ∀ a ∈ args, a.Fits form path.enterArgs := by
  constructor
  · rintro ⟨h, hpaths⟩
    simp only [Segment.paths, mem_pathsOfArgs] at hpaths
    cases h with
    | mk hname hform hargs =>
      exact ⟨hname, hform, fun a ha => ⟨hargs a ha, fun p hp => hpaths p ⟨a, ha, hp⟩⟩⟩
  · rintro ⟨hname, hform, hargs⟩
    refine ⟨.mk hname hform fun a ha => (hargs a ha).1, fun p hp => ?_⟩
    simp only [Segment.paths, mem_pathsOfArgs] at hp
    obtain ⟨a, ha, hp⟩ := hp
    exact (hargs a ha).2 p hp

theorem TypeArg.fits_any : TypeArg.any.Fits form path ↔ path.Within := by
  simp [TypeArg.Fits, TypeArg.paths, TypeArg.Proper.any]

theorem TypeArg.fits_upper {bound : JavaType} :
    (TypeArg.upper bound).Fits form path ↔ bound.IsReference ∧ bound.Fits form path := by
  constructor
  · rintro ⟨h, hpaths⟩
    cases h with
    | upper href hbound => exact ⟨href, hbound, by simpa [TypeArg.paths] using hpaths⟩
  · rintro ⟨href, hbound, hpaths⟩
    exact ⟨.upper href hbound, by simpa [TypeArg.paths] using hpaths⟩

theorem TypeArg.fits_lower {bound : JavaType} :
    (TypeArg.lower bound).Fits form path ↔ bound.IsReference ∧ bound.Fits form path := by
  constructor
  · rintro ⟨h, hpaths⟩
    cases h with
    | lower href hbound => exact ⟨href, hbound, by simpa [TypeArg.paths] using hpaths⟩
  · rintro ⟨href, hbound, hpaths⟩
    exact ⟨.lower href hbound, by simpa [TypeArg.paths] using hpaths⟩

theorem TypeArg.fits_exactly {type : JavaType} :
    (TypeArg.exactly type).Fits form path ↔ type.IsReference ∧ type.Fits form path := by
  constructor
  · rintro ⟨h, hpaths⟩
    cases h with
    | exactly href htype => exact ⟨href, htype, by simpa [TypeArg.paths] using hpaths⟩
  · rintro ⟨href, htype, hpaths⟩
    exact ⟨.exactly href htype, by simpa [TypeArg.paths] using hpaths⟩

/-- What fits in a place has a place to fit in. -/
theorem JavaType.Fits.within : ∀ {t : JavaType} {path : Path}, t.Fits form path → path.Within
  | .primitive _, _, h => fits_primitive.1 h
  | .variable _, _, h => (fits_variable.1 h).1
  | .object .., _, h => (fits_object.1 h).1
  | .array element, path, h => by
    have hmore : path.enterArray.Within := Fits.within (fits_array.1 h)
    exact ⟨Nat.le_of_succ_le hmore.dimensions, hmore.nesting⟩

theorem TypeArg.Fits.within {a : TypeArg} (h : a.Fits form path) : path.Within := by
  cases a with
  | any => exact fits_any.1 h
  | upper bound => exact (fits_upper.1 h).2.within
  | lower bound => exact (fits_lower.1 h).2.within
  | exactly type => exact (fits_exactly.1 h).2.within

/-- The type can be denoted in a text of its own. -/
def JavaType.WellFormed (form : Form) (t : JavaType) : Prop :=
  t.Fits form .top

theorem JavaType.wellFormed_ofName {name : String} (h : IsClassName name) :
    (JavaType.ofName name).WellFormed form :=
  fits_object.2 ⟨⟨Nat.zero_le _, Nat.zero_le _⟩, Segment.fits_mk.2 ⟨h, by simp, by simp⟩, by simp, by simp⟩

/-- Bounds are references, and the name is an identifier. -/
structure TypeParam.WellFormed (p : TypeParam) : Prop where
  name : IsIdentifier p.name
  classBound : ∀ t ∈ p.classBound, t.IsReference ∧ t.WellFormed .generic
  interfaceBounds : ∀ t ∈ p.interfaceBounds, t.IsReference ∧ t.WellFormed .generic

structure MethodType.WellFormed (form : Form) (m : MethodType) : Prop where
  typeParams : ∀ p ∈ m.typeParams, p.WellFormed
  params : ∀ t ∈ m.params, t.WellFormed form
  result : ∀ t, m.result = .value t → t.WellFormed form
  throws : ∀ t ∈ m.throws, t.IsReference ∧ t.WellFormed form
  /-- A descriptor has neither type parameters nor exceptions. -/
  erased : form = .descriptor → m.typeParams = [] ∧ m.throws = []

structure ClassType.WellFormed (c : ClassType) : Prop where
  typeParams : ∀ p ∈ c.typeParams, p.WellFormed
  superclass : c.superclass.IsObject ∧ c.superclass.WellFormed .generic
  interfaces : ∀ t ∈ c.interfaces, t.IsObject ∧ t.WellFormed .generic

/-! ## Type parameters without a bound -/

/-- What follows a type parameter without a bound can be told from a class bound. -/
def TypeParam.Parted (p q : TypeParam) : Prop :=
  p.classBound = none → p.interfaceBounds = [] → ∀ c, q.name.toList.head? = some c → c ≠ 'L' ∧ c ≠ 'T'

/-- No type parameter without a bound stands in front of one whose name starts like a bound. -/
def AreParted (params : List TypeParam) : Prop :=
  params.IsChain TypeParam.Parted

end ApiSurface
