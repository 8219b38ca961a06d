import Mathlib.Algebra.Ring.Parity
import Mathlib.Tactic.Ring
import StackLattice.Proofs.Syntax.Accepted

/-!
How many operators may stand above one another in the tree of a text that is accepted. The levels that a chain uses
are those of what follows its first operand, which is read before they are taken and stands below all of them. So
the first operand may use every level again, and the levels bound the operators only by their sum.
-/

namespace StackLattice.Syntax

mutual

/-- The most operators and selectors on a path from an expression to a leaf. -/
def Expr.operators : Expr → Nat
  | .select base _ => base.operators + 1
  | .struct decls _ => Decl.operatorsAll decls
  | .list items _ => Expr.operatorsAll items
  | .unary _ operand _ => operand.operators + 1
  | .binary _ left right => max left.operators right.operators + 1
  | .paren inner _ => inner.operators
  | _ => 0

def Expr.operatorsAll : List Expr → Nat
  | [] => 0
  | e :: es => max e.operators (Expr.operatorsAll es)

def Decl.operators : Decl → Nat
  | .field _ _ _ _ value => value.operators
  | .embed value => value.operators

def Decl.operatorsAll : List Decl → Nat
  | [] => 0
  | decl :: decls => max decl.operators (Decl.operatorsAll decls)

end

theorem Expr.operatorsAll_le_iff {es : List Expr} {k : Nat} :
    Expr.operatorsAll es ≤ k ↔ ∀ e ∈ es, e.operators ≤ k := by
  induction es with
  | nil => simp [Expr.operatorsAll]
  | cons e es ih => rw [Expr.operatorsAll, Nat.max_le, ih, List.forall_mem_cons]

theorem Decl.operatorsAll_le_iff {decls : List Decl} {k : Nat} :
    Decl.operatorsAll decls ≤ k ↔ ∀ decl ∈ decls, decl.operators ≤ k := by
  induction decls with
  | nil => simp [Decl.operatorsAll]
  | cons decl decls ih => rw [Decl.operatorsAll, Nat.max_le, ih, List.forall_mem_cons]

namespace Grammar

/-- The operators that may stand above one another where `n` levels may be nested: at each level those of a chain of
    alternatives, of one of conjuncts, and of one of selectors or prefix operators. -/
def operatorBound : Nat → Nat
  | 0 => 0
  | n + 1 => operatorBound n + 3 * n

theorem operatorBound_eq (n : Nat) : operatorBound n = 3 * (n * (n - 1) / 2) := by
  have twice : 2 * operatorBound n = 3 * (n * (n - 1)) := by
    induction n with
    | zero => rfl
    | succ n ih =>
      rw [operatorBound, Nat.mul_add, ih]
      cases n with
      | zero => rfl
      | succ n =>
        simp only [Nat.add_sub_cancel]
        ring
  have even : 2 ∣ n * (n - 1) := (Nat.even_mul_pred_self n).two_dvd
  omega

variable {revision : Revision}

mutual

theorem Expression.operators_le : ∀ {n : Nat} {ts : List Token} {e : Expr},
    Expression revision n ts e → e.operators ≤ operatorBound n
  | _, _, _, .disjunction first rest => by
    have first := first.operators_le
    have rest := rest.operators_le _ first (Nat.le_refl _)
    simp only [operatorBound]
    omega

theorem Disjoined.operators_le : ∀ {n : Nat} {left : Expr} {ts : List Token} {e : Expr},
    Disjoined revision n left ts e → ∀ k, left.operators ≤ k → operatorBound n + 2 * n ≤ k → e.operators ≤ k + n
  | _, _, _, _, .done => fun k first _ => by omega
  | _, _, _, _, .more _ next rest => fun k first bound => by
    have next := next.operators_le
    simp only [operatorBound] at bound
    have rest := rest.operators_le (k + 1) (by simp only [Expr.operators]; omega) (by omega)
    omega

theorem Unification.operators_le : ∀ {n : Nat} {ts : List Token} {e : Expr},
    Unification revision n ts e → e.operators ≤ operatorBound n + 2 * n
  | _, _, _, .unification first rest => by
    have first := first.operators_le
    have rest := rest.operators_le _ first (Nat.le_refl _)
    omega

theorem Unified.operators_le : ∀ {n : Nat} {left : Expr} {ts : List Token} {e : Expr},
    Unified revision n left ts e → ∀ k, left.operators ≤ k → operatorBound n + n ≤ k → e.operators ≤ k + n
  | _, _, _, _, .done => fun k first _ => by omega
  | _, _, _, _, .more _ next rest => fun k first bound => by
    have next := next.operators_le
    simp only [operatorBound] at bound
    have rest := rest.operators_le (k + 1) (by simp only [Expr.operators]; omega) (by omega)
    omega

theorem Unary.operators_le : ∀ {n : Nat} {ts : List Token} {e : Expr},
    Unary revision n ts e → e.operators ≤ operatorBound n + n
  | _, _, _, .negated _ operand | _, _, _, .marked _ operand => by
    have operand := operand.operators_le
    simp only [operatorBound, Expr.operators]
    omega
  | _, _, _, .postfixed first rest => by
    have first := first.operators_le
    have rest := rest.operators_le
    omega

theorem Selection.operators_le : ∀ {n : Nat} {base : Expr} {ts : List Token} {e : Expr},
    Selection revision n base ts e → e.operators ≤ base.operators + n
  | _, _, _, _, .done => Nat.le_add_right _ _
  | _, _, _, _, .more _ _ rest => by
    have rest := rest.operators_le
    simp only [Expr.operators] at rest
    omega

theorem Primary.operators_le : ∀ {n : Nat} {ts : List Token} {e : Expr},
    Primary revision n ts e → e.operators ≤ operatorBound n
  | _, _, _, .leaf leaf => by
    cases leaf <;> exact Nat.zero_le _
  | _, _, _, .struct _ _ each _ _ => by
    rw [Expr.operators, Decl.operatorsAll_le_iff]
    intro decl member
    obtain ⟨p, inside, rfl⟩ := List.mem_map.mp member
    exact (each p inside).operators_le
  | _, _, _, .list _ _ each _ _ => by
    rw [Expr.operators, Expr.operatorsAll_le_iff]
    intro e member
    obtain ⟨p, inside, rfl⟩ := List.mem_map.mp member
    exact (each p inside).operators_le
  | _, _, _, .paren _ inner _ => inner.operators_le

theorem Declaration.operators_le : ∀ {n : Nat} {ts : List Token} {decl : Decl},
    Declaration revision n ts decl → decl.operators ≤ operatorBound n
  | _, _, _, .field field => Nat.le_add_right_of_le field.operators_le
  | _, _, _, .embed value => value.operators_le

theorem FieldDecl.operators_le : ∀ {n : Nat} {ts : List Token} {decl : Decl},
    FieldDecl revision n ts decl → decl.operators ≤ operatorBound n
  | _, _, _, .field _ _ _ value => value.operators_le

theorem FieldValue.operators_le : ∀ {n : Nat} {ts : List Token} {e : Expr},
    FieldValue revision n ts e → e.operators ≤ operatorBound n
  | _, _, _, .expression value => value.operators_le
  | _, _, _, .field field => by
    have field := field.operators_le
    simp only [Expr.operators, Decl.operatorsAll, operatorBound]
    omega

end

end Grammar

/-- In the tree of a text that is accepted, no path passes through more operators than the levels add up to. -/
theorem File.operators_le_of_accepted {source : SourceText} {revision : Revision} {keepComments : Bool} {f : File}
    (accepted : File.ofSource source revision keepComments = .ok f) :
    ∀ decl ∈ f.decls, decl.operators ≤ 3 * (nestingLimit * (nestingLimit - 1) / 2) := by
  obtain ⟨tokens, scanner, tree, scanned, derived, rfl⟩ := exists_derived accepted
  cases derived with
  | file _ _ _ _ each _ _ =>
    intro decl member
    obtain ⟨p, inside, rfl⟩ := List.mem_map.mp member
    rw [← Grammar.operatorBound_eq]
    exact (each p inside).operators_le

/-- A text that is accepted with four operators. -/
theorem File.operators_le_of_accepted_mixed :
    let source : SourceText := ⟨"a.cue", "a: [-b.c & 2 | 3]"⟩
    ∃ f, File.ofSource source .current false = .ok f ∧
      ∀ decl ∈ f.decls, decl.operators ≤ 3 * (nestingLimit * (nestingLimit - 1) / 2) := by
  intro source
  obtain ⟨f, accepted⟩ := exists_of_toBool
    (show (File.ofSource source .current false).toBool = true by decide +kernel)
  exact ⟨f, accepted, File.operators_le_of_accepted accepted⟩

/-- `a: 1&…&1|…|1` -/
def chains (conjuncts alternatives : Nat) : List Char :=
  ['a', ':', ' ', '1'] ++ (List.replicate conjuncts ['&', '1']).flatten ++
    (List.replicate alternatives ['|', '1']).flatten

theorem Scanner.ofString_ofList (cs : List Char) (keepComments : Bool) :
    Scanner.ofString (String.ofList cs) keepComments = { input := ⟨cs, 0⟩, keepComments } := by
  simp only [Scanner.ofString, Text.Input.ofString, String.toList_ofList]

/-- Whether characters are accepted as a file with more than `k` operators above one another. -/
def operatorsExceed (revision : Revision) (k : Nat) (cs : List Char) : Bool :=
  let scanner : Scanner := { input := ⟨cs, 0⟩, keepComments := false }
  match scanner.tokens.1.bind fun tokens => file revision (Cursor.ofTokens tokens) with
  | .ok (f, _) => f.decls.any (k < ·.operators)
  | .error _ => false

theorem exists_of_operatorsExceed {revision : Revision} {k : Nat} {cs : List Char} (path : String)
    (h : operatorsExceed revision k cs = true) :
    ∃ f, File.ofSource ⟨path, String.ofList cs⟩ revision false = .ok f ∧ ∃ decl ∈ f.decls, k < decl.operators := by
  unfold operatorsExceed at h
  rcases scanned : ({ input := ⟨cs, 0⟩, keepComments := false } : Scanner).tokens with ⟨read, scanner⟩
  simp only [scanned] at h
  have scanned : (Scanner.ofString (⟨path, String.ofList cs⟩ : SourceText).text false).tokens = (read, scanner) := by
    rw [Scanner.ofString_ofList, scanned]
  cases read with
  | error e => cases h
  | ok tokens =>
    rw [File.ofSource_eq scanned]
    cases parsed : file revision (Cursor.ofTokens tokens) with
    | error e =>
      simp only [Except.bind, parsed] at h
      cases h
    | ok r =>
      simp only [Except.bind, parsed] at h
      obtain ⟨decl, member, height⟩ := List.any_eq_true.mp h
      exact ⟨_, rfl, decl, member, of_decide_eq_true height⟩

/-- Of a chain of 150 alternatives, the first of them a chain of 150 conjuncts, the first conjunct stands below 300
    operators. -/
theorem File.operators_exceed_limit :
    ∃ f, File.ofSource ⟨"a.cue", String.ofList (chains 150 150)⟩ .current false = .ok f ∧
      ∃ decl ∈ f.decls, nestingLimit < decl.operators := by
  have deep : operatorsExceed .current nestingLimit (chains 150 150) = true := by decide +kernel
  exact exists_of_operatorsExceed "a.cue" deep

end StackLattice.Syntax
