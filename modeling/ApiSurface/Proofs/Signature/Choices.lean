import ApiSurface.Signature.Parser

/-!
The parsers that choose by the next character, as chains of conditions.

A comparison of two parsers goes through conditions one at a time, where a match would have to be split
on both sides at once. Actions behind a match stand behind the chain once, and not in each branch.
-/

namespace ApiSurface.Signature.Parser

variable {form : Form} {path : Path}

/-- One type argument, given how the types in it are read. -/
theorem typeArg_eq (reference : Parser JavaType) :
    (do
      match ← peek with
      | some '*' =>
        skip
        return .any
      | some '+' =>
        skip
        return .upper (← reference)
      | some '-' =>
        skip
        return .lower (← reference)
      | _ => return .exactly (← reference) : Parser TypeArg) =
    peek >>= fun head =>
      if head = some '*' then skip >>= fun _ => pure .any
      else if head = some '+' then skip >>= fun _ => do return .upper (← reference)
      else if head = some '-' then skip >>= fun _ => do return .lower (← reference)
      else do return .exactly (← reference) := by
  congr 1
  funext head
  split
  · rfl
  · rfl
  · rfl
  · next hany hupper hlower => rw [if_neg hany, if_neg hupper, if_neg hlower]

theorem referenceType_succ (budget : Nat) : referenceType form (budget + 1) path =
    peek >>= fun head =>
      if head = some 'L' then classType form budget path
      else if head = some '[' then do
        let n := (← run (· = '[')).length
        if path.dimensions + n > maxDimensions then
          fail .tooManyDimensions
        else
          let element ← valueType form budget { path with dimensions := path.dimensions + n }
          return arrayOf n element
      else if head = some 'T' ∧ form = .generic then do
        skip
        let name ← identifier ';'
        expect ';'
        return .variable name
      else fail .expectedReference := by
  rw [referenceType.eq_def]
  dsimp only
  congr 1
  funext head
  split
  · rfl
  · rfl
  · cases form <;> rfl
  · next hclass hopen hvariable =>
    rw [if_neg hclass, if_neg hopen, if_neg (mt And.left hvariable)]

theorem typeParam_eq (budget : Nat) : typeParam form budget =
    identifier ':' >>= fun name => expect ':' >>= fun _ =>
      (peek >>= fun head =>
        if head = some 'L' ∨ head = some 'T' ∨ head = some '[' then
          some <$> referenceType form budget .top
        else pure none) >>= fun classBound =>
      repeatMarked ':' (referenceType form budget .top) >>= fun interfaceBounds =>
        pure { name, classBound, interfaceBounds } := by
  rw [typeParam]
  congr 1
  funext name
  congr 1
  funext _
  rw [bind_assoc]
  congr 1
  funext head
  split
  · rfl
  · rfl
  · rfl
  · next hclass hvariable hopen =>
    rw [if_neg (not_or.2 ⟨hclass, not_or.2 ⟨hvariable, hopen⟩⟩)]

theorem methodType_eq (form : Form) (budget : Nat) : methodType form budget =
    typeParams form budget >>= fun typeParams => expect '(' >>= fun _ =>
      (repeatUntil ')' do
        if (← peek).isNone then
          fail .unterminatedParameters
        else
          valueType form budget .top) >>= fun params =>
      returnType form budget >>= fun result =>
      (match form with
        | .descriptor => do
          if (← peek) = some '^' then
            fail .throwsInDescriptor
          else
            pure []
        | .generic => repeatMarked '^' (referenceType form budget .top)) >>= fun throws =>
        pure { typeParams, params, result, throws } := by
  rw [methodType]
  cases form with
  | generic => rfl
  | descriptor =>
    congr 1
    funext typeParams
    congr 1
    funext _
    congr 1
    funext params
    congr 1
    funext result
    dsimp only
    rw [bind_assoc]
    congr 1
    funext head
    split <;> rfl

end ApiSurface.Signature.Parser
