import Blueprint.SourceFile

/-!
# Equality of expressions

The recursion by which keys of objects are compared tells exactly whether two expressions are equal
(`Expr.same_iff`). So equality of expressions, and with it that of bodies and of source files, can
be decided.
-/

namespace Blueprint.Hcl

namespace Expr

mutual
/-- Two expressions are told to be the same exactly if they are equal. -/
theorem same_iff : (a b : Expr) → (same a b = true ↔ a = b)
  -- One case per constructor on the left; on the right every other constructor differs.
  | null, b => by cases b <;> simp [same]
  | bool _, b => by cases b <;> simp [same]
  | number _, b => by cases b <;> simp [same]
  | string _, b => by cases b <;> simp [same]
  | array items, b => by cases b <;> simp [same, sameItems_iff items]
  | object entries, b => by cases b <;> simp [same, sameEntries_iff entries]
  | template _, b => by cases b <;> simp [same]
  | heredoc _, b => by cases b <;> simp [same]
  | ident _, b => by cases b <;> simp [same]
  | traversal root selectors, b => by
    cases b <;> simp [same, same_iff root, sameSelectors_iff selectors]
  | call _ _ args _, b => by cases b <;> simp [same, sameItems_iff args, and_assoc]
  | paren inner, b => by cases b <;> simp [same, same_iff inner]
  | conditional condition whenTrue whenFalse, b => by
    cases b <;> simp [same, same_iff condition, same_iff whenTrue, same_iff whenFalse, and_assoc]
  | unary _ operand, b => by cases b <;> simp [same, same_iff operand]
  | binary _ left right, b => by cases b <;> simp [same, same_iff left, same_iff right, and_assoc]
  | forEach _ _ collection keyResult result _ condition, b => by
    cases b <;> simp [same, same_iff collection, sameOptional_iff keyResult, same_iff result,
      sameOptional_iff condition, and_assoc]

private theorem sameItems_iff : (as bs : List Expr) → (sameItems as bs = true ↔ as = bs)
  | [], bs => by cases bs <;> simp [sameItems]
  | a :: as, bs => by cases bs <;> simp [sameItems, same_iff a, sameItems_iff as]

private theorem sameOptional_iff : (a b : Option Expr) → (sameOptional a b = true ↔ a = b)
  | none, b => by cases b <;> simp [sameOptional]
  | some a, b => by cases b <;> simp [sameOptional, same_iff a]

private theorem sameKey_iff : (a b : Key) → (sameKey a b = true ↔ a = b)
  | .name _, b => by cases b <;> simp [sameKey]
  | .expr a, b => by cases b <;> simp [sameKey, same_iff a]

private theorem sameEntries_iff :
    (as bs : List (Key × Expr)) → (sameEntries as bs = true ↔ as = bs)
  | [], bs => by cases bs <;> simp [sameEntries]
  | _ :: _, [] => by simp [sameEntries]
  | (key, a) :: as, (_, _) :: _ => by
    simp [sameEntries, sameKey_iff key, same_iff a, sameEntries_iff as, and_assoc]

private theorem sameSelector_iff : (a b : Selector) → (sameSelector a b = true ↔ a = b)
  | .field _, b => by cases b <;> simp [sameSelector]
  | .position _, b => by cases b <;> simp [sameSelector]
  | .index a, b => by cases b <;> simp [sameSelector, same_iff a]
  | .fieldSplat, b => by cases b <;> simp [sameSelector]
  | .splat, b => by cases b <;> simp [sameSelector]

private theorem sameSelectors_iff :
    (as bs : List Selector) → (sameSelectors as bs = true ↔ as = bs)
  | [], bs => by cases bs <;> simp [sameSelectors]
  | a :: as, bs => by
    cases bs <;> simp [sameSelectors, sameSelector_iff a, sameSelectors_iff as]
end

instance : DecidableEq Expr := fun a b => decidable_of_iff (same a b = true) (same_iff a b)

end Expr

namespace Structure

mutual
/-- Equality of statements is decided by recursion on both. -/
def decEq : (a b : Structure) → Decidable (a = b)
  | assign name value, assign name' value' =>
    decidable_of_iff (name = name' ∧ value = value') (by simp)
  | block kind labels body, block kind' labels' body' =>
    match decEqBody body body' with
    | isTrue same => decidable_of_iff (kind = kind' ∧ labels = labels') (by simp [same])
    | isFalse different => isFalse (by simp [different])
  | assign .., block .. | block .., assign .. => isFalse (by simp)

def decEqBody : (as bs : List Structure) → Decidable (as = bs)
  | [], [] => isTrue rfl
  | [], _ :: _ | _ :: _, [] => isFalse (by simp)
  | a :: as, b :: bs =>
    match decEq a b, decEqBody as bs with
    | isTrue same, isTrue others => isTrue (by rw [same, others])
    | isFalse different, _ => isFalse (by simp [different])
    | _, isFalse different => isFalse (by simp [different])
end

instance : DecidableEq Structure := decEq

end Structure
end Blueprint.Hcl

namespace Blueprint

deriving instance DecidableEq for SourceFile

end Blueprint
