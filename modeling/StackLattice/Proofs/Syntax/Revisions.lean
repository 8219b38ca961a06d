import StackLattice.Proofs.Syntax.Accepted

/-!
The revisions of the language differ in the double colon alone. What a revision derives has no double colon that the
revision lacks, and without one the derivation is one of every other revision, of the same tree.
-/

namespace StackLattice.Syntax

open Grammar

/-- Whether a revision has all of these tokens. The double colon is in the legacy revision only. -/
def Revision.Has (revision : Revision) (ts : List Token) : Prop := ∀ t ∈ ts, t.kind = .doubleColon → revision = .legacy

namespace Revision.Has

variable {revision : Revision} {t : Token} {ts us : List Token}

theorem nil : revision.Has [] := List.forall_mem_nil _

theorem cons {kind : TokenKind} (is : t.kind = kind) (other : kind ≠ .doubleColon) (rest : revision.Has ts) :
    revision.Has (t :: ts) :=
  List.forall_mem_cons.mpr ⟨fun double => absurd (is.symm.trans double) other, rest⟩

theorem append (first : revision.Has ts) (last : revision.Has us) : revision.Has (ts ++ us) :=
  List.forall_mem_append.mpr ⟨first, last⟩

theorem left (h : revision.Has (ts ++ us)) : revision.Has ts := (List.forall_mem_append.mp h).1

theorem right (h : revision.Has (ts ++ us)) : revision.Has us := (List.forall_mem_append.mp h).2

theorem tail (h : revision.Has (t :: ts)) : revision.Has ts := (List.forall_mem_cons.mp h).2

theorem head (h : revision.Has (t :: ts)) : t.kind = .doubleColon → revision = .legacy := (List.forall_mem_cons.mp h).1

theorem commas (h : Commas ts) : revision.Has ts := by
  intro t member double
  have comma := h t member
  rw [double] at comma
  cases comma

theorem legacy (ts : List Token) : Revision.legacy.Has ts := fun _ _ _ => rfl

end Revision.Has

theorem Revision.has_current_iff {ts : List Token} : Revision.current.Has ts ↔ ∀ t ∈ ts, t.kind ≠ .doubleColon :=
  forall₂_congr fun _ _ => ⟨fun legacy double => (by cases legacy double), fun single double => absurd double single⟩

section Pieces

variable {α : Type} {revision : Revision} {pieces : List (Piece α)} {follows : List Token}

theorem separated_commas (separated : Separated follows pieces) : ∀ p ∈ pieces, Commas p.commas := by
  induction pieces with
  | nil => exact List.forall_mem_nil _
  | cons p ps ih => exact List.forall_mem_cons.mpr ⟨separated.1.1, ih separated.2⟩

theorem Revision.Has.written (separated : Separated follows pieces)
    (each : ∀ p ∈ pieces, revision.Has p.tokens) : revision.Has (written pieces) := by
  intro t member
  obtain ⟨p, isPiece, member⟩ := List.mem_flatMap.mp member
  exact ((each p isPiece).append (.commas (separated_commas separated p isPiece))) t member

theorem Revision.Has.piece (h : revision.Has (Grammar.written pieces)) {p : Piece α} (isPiece : p ∈ pieces) :
    revision.Has p.tokens :=
  fun t member => h t (List.mem_flatMap.mpr ⟨p, isPiece, List.mem_append_left _ member⟩)

end Pieces

section Trees

variable {revision revision' : Revision}

theorem leaf_has {t : Token} {e : Expr} (h : Leaf t e) : revision.Has [t] := by
  cases h with
  | null is | true is | false is | int is | float is | string is | ident is => exact .cons is nofun .nil

theorem selected_has {t : Token} {name : String} {ts : List Token} (h : Selected t name) (rest : revision.Has ts) :
    revision.Has (t :: ts) := by
  cases h with
  | ident is | string is => exact .cons is nofun rest

theorem labels_has {t : Token} {label : Label} {ts : List Token} (h : Labels t label) (rest : revision.Has ts) :
    revision.Has (t :: ts) := by
  cases h with
  | name is _ | string is => exact .cons is nofun rest

theorem mark_has {ts : List Token} {optional : Bool} (h : Mark ts optional) : revision.Has ts := by
  cases h with
  | required => exact .nil
  | optional is => exact .cons is nofun .nil

/-- The one place at which the revision is looked at. -/
theorem colon_has {kind kind' : LabelKind} {t : Token} {ts : List Token} (h : Colon revision kind t kind')
    (rest : revision.Has ts) : revision.Has (t :: ts) := by
  cases h with
  | single is => exact .cons is nofun rest
  | double _ legacy => exact List.forall_mem_cons.mpr ⟨fun _ => legacy, rest⟩

theorem colon_revised {kind kind' : LabelKind} {t : Token} {ts : List Token} (h : Colon revision kind t kind')
    (has : revision'.Has (t :: ts)) : Colon revision' kind t kind' := by
  cases h with
  | single is => exact .single is
  | double is _ => exact .double is (has.head is)

mutual

theorem Grammar.Expression.has : ∀ {n : Nat} {ts : List Token} {e : Expr},
    Expression revision n ts e → revision.Has ts
  | _, _, _, .disjunction first rest => .append first.has rest.has

theorem Grammar.Disjoined.has : ∀ {n : Nat} {left e : Expr} {ts : List Token},
    Disjoined revision n left ts e → revision.Has ts
  | _, _, _, _, .done => .nil
  | _, _, _, _, .more bar next rest => .append (.cons bar nofun next.has) rest.has

theorem Grammar.Unification.has : ∀ {n : Nat} {ts : List Token} {e : Expr},
    Unification revision n ts e → revision.Has ts
  | _, _, _, .unification first rest => .append first.has rest.has

theorem Grammar.Unified.has : ∀ {n : Nat} {left e : Expr} {ts : List Token},
    Unified revision n left ts e → revision.Has ts
  | _, _, _, _, .done => .nil
  | _, _, _, _, .more ampersand next rest => .append (.cons ampersand nofun next.has) rest.has

theorem Grammar.Unary.has : ∀ {n : Nat} {ts : List Token} {e : Expr}, Unary revision n ts e → revision.Has ts
  | _, _, _, .negated op operand | _, _, _, .marked op operand => .cons op nofun operand.has
  | _, _, _, .postfixed first rest => .append first.has rest.has

theorem Grammar.Selection.has : ∀ {n : Nat} {base e : Expr} {ts : List Token},
    Selection revision n base ts e → revision.Has ts
  | _, _, _, _, .done => .nil
  | _, _, _, _, .more dot name rest => .cons dot nofun (selected_has name rest.has)

theorem Grammar.Primary.has : ∀ {n : Nat} {ts : List Token} {e : Expr}, Primary revision n ts e → revision.Has ts
  | _, _, _, .leaf leaf => leaf_has leaf
  | _, _, _, .struct opens areCommas each separated closes =>
    .append (.append (.cons opens nofun (.commas areCommas)) (.written separated fun p member => (each p member).has))
      (.cons closes nofun .nil)
  | _, _, _, .list opens areCommas each separated closes =>
    .append (.append (.cons opens nofun (.commas areCommas)) (.written separated fun p member => (each p member).has))
      (.cons closes nofun .nil)
  | _, _, _, .paren opens inner closes => .append (.cons opens nofun inner.has) (.cons closes nofun .nil)

theorem Grammar.Declaration.has : ∀ {n : Nat} {ts : List Token} {decl : Decl},
    Declaration revision n ts decl → revision.Has ts
  | _, _, _, .field field => field.has
  | _, _, _, .embed value => value.has

theorem Grammar.FieldDecl.has : ∀ {n : Nat} {ts : List Token} {decl : Decl},
    FieldDecl revision n ts decl → revision.Has ts
  | _, _, _, .field labels mark colon value =>
    .append (labels_has labels (mark_has mark)) (colon_has colon value.has)

theorem Grammar.FieldValue.has : ∀ {n : Nat} {ts : List Token} {e : Expr},
    FieldValue revision n ts e → revision.Has ts
  | _, _, _, .expression value => value.has
  | _, _, _, .field field => field.has

end

mutual

theorem Grammar.Expression.revised : ∀ {n : Nat} {ts : List Token} {e : Expr},
    Expression revision n ts e → revision'.Has ts → Expression revision' n ts e
  | _, _, _, .disjunction first rest => fun has => .disjunction (first.revised has.left) (rest.revised has.right)

theorem Grammar.Disjoined.revised : ∀ {n : Nat} {left e : Expr} {ts : List Token},
    Disjoined revision n left ts e → revision'.Has ts → Disjoined revision' n left ts e
  | _, _, _, _, .done => fun _ => .done
  | _, _, _, _, .more bar next rest => fun has =>
    .more bar (next.revised has.left.tail) (rest.revised has.right)

theorem Grammar.Unification.revised : ∀ {n : Nat} {ts : List Token} {e : Expr},
    Unification revision n ts e → revision'.Has ts → Unification revision' n ts e
  | _, _, _, .unification first rest => fun has => .unification (first.revised has.left) (rest.revised has.right)

theorem Grammar.Unified.revised : ∀ {n : Nat} {left e : Expr} {ts : List Token},
    Unified revision n left ts e → revision'.Has ts → Unified revision' n left ts e
  | _, _, _, _, .done => fun _ => .done
  | _, _, _, _, .more ampersand next rest => fun has =>
    .more ampersand (next.revised has.left.tail) (rest.revised has.right)

theorem Grammar.Unary.revised : ∀ {n : Nat} {ts : List Token} {e : Expr},
    Unary revision n ts e → revision'.Has ts → Unary revision' n ts e
  | _, _, _, .negated op operand => fun has => .negated op (operand.revised has.tail)
  | _, _, _, .marked op operand => fun has => .marked op (operand.revised has.tail)
  | _, _, _, .postfixed first rest => fun has => .postfixed (first.revised has.left) (rest.revised has.right)

theorem Grammar.Selection.revised : ∀ {n : Nat} {base e : Expr} {ts : List Token},
    Selection revision n base ts e → revision'.Has ts → Selection revision' n base ts e
  | _, _, _, _, .done => fun _ => .done
  | _, _, _, _, .more dot name rest => fun has => .more dot name (rest.revised has.tail.tail)

theorem Grammar.Primary.revised : ∀ {n : Nat} {ts : List Token} {e : Expr},
    Primary revision n ts e → revision'.Has ts → Primary revision' n ts e
  | _, _, _, .leaf leaf => fun _ => .leaf leaf
  | _, _, _, .struct opens areCommas each separated closes => fun has =>
    .struct opens areCommas (fun p member => (each p member).revised (has.left.right.piece member)) separated closes
  | _, _, _, .list opens areCommas each separated closes => fun has =>
    .list opens areCommas (fun p member => (each p member).revised (has.left.right.piece member)) separated closes
  | _, _, _, .paren opens inner closes => fun has => .paren opens (inner.revised has.left.tail) closes

theorem Grammar.Declaration.revised : ∀ {n : Nat} {ts : List Token} {decl : Decl},
    Declaration revision n ts decl → revision'.Has ts → Declaration revision' n ts decl
  | _, _, _, .field field => fun has => .field (field.revised has)
  | _, _, _, .embed value => fun has => .embed (value.revised has)

theorem Grammar.FieldDecl.revised : ∀ {n : Nat} {ts : List Token} {decl : Decl},
    FieldDecl revision n ts decl → revision'.Has ts → FieldDecl revision' n ts decl
  | _, _, _, .field labels mark colon value => fun has =>
    .field labels mark (colon_revised colon has.right) (value.revised has.right.tail)

theorem Grammar.FieldValue.revised : ∀ {n : Nat} {ts : List Token} {e : Expr},
    FieldValue revision n ts e → revision'.Has ts → FieldValue revision' n ts e
  | _, _, _, .expression value => fun has => .expression (value.revised has)
  | _, _, _, .field field => fun has => .field (field.revised has)

end

end Trees

section Files

variable {revision revision' : Revision}

theorem importClause_has {ts : List Token} {i : Import} (h : ImportClause ts i) : revision.Has ts := by
  cases h with
  | plain is => exact .cons is nofun .nil
  | named isName isPath => exact .cons isName nofun (.cons isPath nofun .nil)

theorem importDecl_has {ts : List Token} {is : List Import} (h : ImportDecl ts is) : revision.Has ts := by
  cases h with
  | single importing clause => exact .cons importing nofun (importClause_has clause)
  | group importing opens areCommas clauses separated closes =>
    have inside := Revision.Has.written separated fun p member =>
      (importClause_has (clauses p member) : revision.Has p.tokens)
    exact .append (.append (.cons importing nofun (.cons opens nofun (.commas areCommas))) inside)
      (.cons closes nofun .nil)

theorem packageClause_has {ts follows : List Token} {name : Option Ident} (h : PackageClause follows ts name) :
    revision.Has ts := by
  cases h with
  | absent => exact .nil
  | present isWord isName separator => exact .cons isWord nofun (.cons isName nofun (.commas separator.1))

theorem Grammar.File.has {n : Nat} {ts : List Token} {f : Syntax.File} (h : Grammar.File revision n ts f) :
    revision.Has ts := by
  cases h with
  | file areCommas isPackage areImports separated areDecls separated' eof =>
    have imports := Revision.Has.written separated fun p member =>
      (importDecl_has (areImports p member) : revision.Has p.tokens)
    have decls := Revision.Has.written separated' fun p member => (areDecls p member).has
    exact .append (.append (.commas areCommas) (((packageClause_has isPackage).append imports).append decls))
      (.cons eof nofun .nil)

theorem Grammar.File.revised {n : Nat} {ts : List Token} {f : Syntax.File} (h : Grammar.File revision n ts f)
    (has : revision'.Has ts) : Grammar.File revision' n ts f := by
  cases h with
  | file areCommas isPackage areImports separated areDecls separated' eof =>
    have decls := has.left.right.right
    exact .file areCommas isPackage areImports separated
      (fun p member => (areDecls p member).revised (decls.piece member)) separated' eof

/-- A text is accepted under a revision if another revision accepts it as the same tree, and all of its tokens are in
    the first. -/
theorem File.ofSource_revised (revision' : Revision) {source : SourceText} {keepComments : Bool} {f : File}
    (accepted : File.ofSource source revision keepComments = .ok f) :
    ∃ tokens scanner, (Scanner.ofString source.text keepComments).tokens = (.ok tokens, scanner) ∧
      revision.Has tokens ∧ (revision'.Has tokens → File.ofSource source revision' keepComments = .ok f) := by
  obtain ⟨tokens, scanner, tree, scanned, derived, rfl⟩ := exists_derived accepted
  exact ⟨tokens, scanner, scanned, derived.has, fun has => ofSource_of_derived scanned (derived.revised has)⟩

/-- The current revision accepts what the legacy revision accepts without a double colon, as the same tree. What it
    refuses of the rest has a double colon. -/
theorem File.ofSource_current_eq_ok_iff (source : SourceText) (keepComments : Bool) :
    (∀ f, File.ofSource source .current keepComments = .ok f ↔
      File.ofSource source .legacy keepComments = .ok f ∧
        ∃ tokens scanner, (Scanner.ofString source.text keepComments).tokens = (.ok tokens, scanner) ∧
          ∀ t ∈ tokens, t.kind ≠ .doubleColon) ∧
    ∀ f, File.ofSource source .legacy keepComments = .ok f →
      (∃ e, File.ofSource source .current keepComments = .error e) →
        ∃ tokens scanner, (Scanner.ofString source.text keepComments).tokens = (.ok tokens, scanner) ∧
          ∃ t ∈ tokens, t.kind = .doubleColon := by
  constructor
  · intro f
    constructor
    · intro accepted
      obtain ⟨tokens, scanner, scanned, has, legacy⟩ := ofSource_revised .legacy accepted
      exact ⟨legacy (.legacy tokens), tokens, scanner, scanned, Revision.has_current_iff.mp has⟩
    · rintro ⟨accepted, tokens, scanner, scanned, single⟩
      obtain ⟨tokens', scanner', scanned', -, current⟩ := ofSource_revised .current accepted
      cases scanned.symm.trans scanned'
      exact current (Revision.has_current_iff.mpr single)
  · rintro f accepted ⟨e, refused⟩
    obtain ⟨tokens, scanner, scanned, -, current⟩ := ofSource_revised .current accepted
    refine ⟨tokens, scanner, scanned, Classical.byContradiction fun single => ?_⟩
    have has : Revision.current.Has tokens := Revision.has_current_iff.mpr fun t member double =>
      single ⟨t, member, double⟩
    cases (current has).symm.trans refused

/-- A definition with a double colon. -/
example :
    let source : SourceText := ⟨"a.cue", "a:: 1"⟩
    (File.ofSource source .legacy true).toBool = true ∧ (File.ofSource source .current true).toBool = false := by
  decide +kernel

end Files

end StackLattice.Syntax
