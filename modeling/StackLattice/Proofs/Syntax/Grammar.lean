import StackLattice.Syntax.Parser

/-!
The grammar of the language over tokens, and the tree of each derivation. What is repeated is taken from left to
right, so that operators and selectors associate to the left.

The number of a derivation is how many levels it may nest. A field, an expression, the operand of a prefix operator
and each further link of a chain take one level from what stands in them and behind them in their chain.
-/

namespace StackLattice.Syntax.Grammar

def Commas (ts : List Token) : Prop := ∀ t ∈ ts, t.kind.isComma = true

/-- One or more commas, or none where nothing else follows before the end of the list. -/
def Separator (commas follows : List Token) : Prop := Commas commas ∧ (commas = [] → follows = [])

/-- An element of a list and the commas behind it. -/
structure Piece (α : Type) where
  tokens : List Token
  commas : List Token
  tree : α

def written {α : Type} (pieces : List (Piece α)) : List Token := pieces.flatMap fun p => p.tokens ++ p.commas

theorem written_cons {α : Type} (p : Piece α) (ps : List (Piece α)) :
    written (p :: ps) = p.tokens ++ p.commas ++ written ps := rfl

def trees {α : Type} (pieces : List (Piece α)) : List α := pieces.map (·.tree)

/-- Whether each piece is separated from what follows it. -/
def Separated {α : Type} (follows : List Token) : List (Piece α) → Prop
  | [] => True
  | p :: ps => Separator p.commas (written ps ++ follows) ∧ Separated follows ps

inductive Leaf : Token → Expr → Prop
  | null {t : Token} : t.kind = .null → Leaf t (.null t.span)
  | true {t : Token} : t.kind = .true → Leaf t (.bool Bool.true t.span)
  | false {t : Token} : t.kind = .false → Leaf t (.bool Bool.false t.span)
  | int {t : Token} {n : Nat} : t.kind = .int n → Leaf t (.int n t.span)
  | float {t : Token} {x : Decimal.Binary64} : t.kind = .float x → Leaf t (.float x t.span)
  | string {t : Token} {s : String} : t.kind = .string s → Leaf t (.string s t.span)
  | ident {t : Token} {name : String} : t.kind = .ident name → Leaf t (.ident ⟨name, t.span⟩)

inductive Selected : Token → String → Prop
  | ident {t : Token} {name : String} : t.kind = .ident name → Selected t name
  | string {t : Token} {name : String} : t.kind = .string name → Selected t name

inductive Labels : Token → Label → Prop
  | name {t : Token} {name : String} : t.kind = .ident name → name ≠ "_" → Labels t ⟨name, labelKind name, t.span⟩
  | string {t : Token} {name : String} : t.kind = .string name → Labels t ⟨name, .regular, t.span⟩

/-- The mark of an optional field. -/
inductive Mark : List Token → Bool → Prop
  | required : Mark [] false
  | optional {t : Token} : t.kind = .question → Mark [t] true

/-- The colon of a field. With a double colon, which only the legacy revision has, the label is that of a
    definition. -/
inductive Colon (revision : Revision) (kind : LabelKind) : Token → LabelKind → Prop
  | single {t : Token} : t.kind = .colon → Colon revision kind t kind
  | double {t : Token} : t.kind = .doubleColon → revision = .legacy → Colon revision kind t .definition

section Trees

variable (revision : Revision)

mutual

/-- `unification { "|" unification }` -/
inductive Expression : Nat → List Token → Expr → Prop
  | disjunction {n : Nat} {ts us : List Token} {first e : Expr} :
    Unification n ts first → Disjoined n first us e → Expression (n + 1) (ts ++ us) e

/-- Whatever alternatives follow the ones already read. -/
inductive Disjoined : Nat → Expr → List Token → Expr → Prop
  | done {n : Nat} {e : Expr} : Disjoined n e [] e
  | more {n : Nat} {bar : Token} {ts us : List Token} {left right e : Expr} : bar.kind = .pipe →
    Unification n ts right → Disjoined n (.binary .disjoin left right) us e →
    Disjoined (n + 1) left (bar :: ts ++ us) e

/-- `unary { "&" unary }` -/
inductive Unification : Nat → List Token → Expr → Prop
  | unification {n : Nat} {ts us : List Token} {first e : Expr} :
    Unary n ts first → Unified n first us e → Unification n (ts ++ us) e

/-- Whatever conjuncts follow the ones already read. -/
inductive Unified : Nat → Expr → List Token → Expr → Prop
  | done {n : Nat} {e : Expr} : Unified n e [] e
  | more {n : Nat} {ampersand : Token} {ts us : List Token} {left right e : Expr} :
    ampersand.kind = .ampersand → Unary n ts right → Unified n (.binary .unify left right) us e →
    Unified (n + 1) left (ampersand :: ts ++ us) e

/-- `( "-" | "*" ) unary`, or `primary { "." name }` -/
inductive Unary : Nat → List Token → Expr → Prop
  | negated {n : Nat} {op : Token} {ts : List Token} {e : Expr} : op.kind = .minus → Unary n ts e →
    Unary (n + 1) (op :: ts) (.unary .negate e (op.span.merge e.span))
  | marked {n : Nat} {op : Token} {ts : List Token} {e : Expr} : op.kind = .star → Unary n ts e →
    Unary (n + 1) (op :: ts) (.unary .mark e (op.span.merge e.span))
  | postfixed {n : Nat} {ts us : List Token} {first e : Expr} :
    Primary n ts first → Selection n first us e → Unary n (ts ++ us) e

/-- Whatever selectors follow the ones already read. -/
inductive Selection : Nat → Expr → List Token → Expr → Prop
  | done {n : Nat} {e : Expr} : Selection n e [] e
  | more {n : Nat} {dot name : Token} {label : String} {us : List Token} {base e : Expr} : dot.kind = .dot →
    Selected name label → Selection n (.select base ⟨label, name.span⟩) us e →
    Selection (n + 1) base (dot :: name :: us) e

/-- A leaf, or a struct, list or expression in brackets. -/
inductive Primary : Nat → List Token → Expr → Prop
  | leaf {n : Nat} {t : Token} {e : Expr} : Leaf t e → Primary n [t] e
  | struct {n : Nat} {opening closing : Token} {commas : List Token} {pieces : List (Piece Decl)} :
    opening.kind = .leftBrace → Commas commas → (∀ p ∈ pieces, Declaration n p.tokens p.tree) →
    Separated [] pieces → closing.kind = .rightBrace →
    Primary n (opening :: commas ++ written pieces ++ [closing])
      (.struct (trees pieces) (opening.span.merge closing.span))
  | list {n : Nat} {opening closing : Token} {commas : List Token} {pieces : List (Piece Expr)} :
    opening.kind = .leftBracket → Commas commas → (∀ p ∈ pieces, Expression n p.tokens p.tree) →
    Separated [] pieces → closing.kind = .rightBracket →
    Primary n (opening :: commas ++ written pieces ++ [closing])
      (.list (trees pieces) (opening.span.merge closing.span))
  | paren {n : Nat} {opening closing : Token} {ts : List Token} {e : Expr} :
    opening.kind = .leftParen → Expression n ts e → closing.kind = .rightParen →
    Primary n (opening :: ts ++ [closing]) (.paren e (opening.span.merge closing.span))

/-- A field or an embedded expression. -/
inductive Declaration : Nat → List Token → Decl → Prop
  | field {n : Nat} {ts : List Token} {d : Decl} : FieldDecl n ts d → Declaration (n + 1) ts d
  | embed {n : Nat} {ts : List Token} {e : Expr} : Expression n ts e → Declaration n ts (.embed e)

/-- `label [ "?" ] ( ":" | "::" ) value` -/
inductive FieldDecl : Nat → List Token → Decl → Prop
  | field {n : Nat} {name colon : Token} {mark ts : List Token} {label : Label} {optional : Bool} {kind : LabelKind}
      {value : Expr} :
    Labels name label → Mark mark optional → Colon revision label.kind colon kind → FieldValue n ts value →
    FieldDecl n (name :: mark ++ colon :: ts)
      (.field { label with kind } optional name.doc (label.span.merge value.span) value)

/-- An expression, or a field that stands for the struct of it alone. -/
inductive FieldValue : Nat → List Token → Expr → Prop
  | expression {n : Nat} {ts : List Token} {e : Expr} : Expression n ts e → FieldValue n ts e
  | field {n : Nat} {ts : List Token} {d : Decl} : FieldDecl n ts d → FieldValue (n + 1) ts (.struct [d] d.span)

end

end Trees

inductive ImportClause : List Token → Import → Prop
  | plain {path : Token} {s : String} : path.kind = .string s →
    ImportClause [path] ⟨s, none, path.span.merge path.span⟩
  | named {name path : Token} {s as : String} : name.kind = .ident as → path.kind = .string s →
    ImportClause [name, path] ⟨s, some ⟨as, name.span⟩, name.span.merge path.span⟩

/-- One clause, or a list of clauses in parentheses. -/
inductive ImportDecl : List Token → List Import → Prop
  | single {word : Token} {ts : List Token} {i : Import} : word.kind = .importing → ImportClause ts i →
    ImportDecl (word :: ts) [i]
  | group {word opening closing : Token} {commas : List Token} {pieces : List (Piece Import)} :
    word.kind = .importing → opening.kind = .leftParen → Commas commas →
    (∀ p ∈ pieces, ImportClause p.tokens p.tree) → Separated [] pieces → closing.kind = .rightParen →
    ImportDecl (word :: opening :: commas ++ written pieces ++ [closing]) (trees pieces)

/-- `[ package name separator ]`, in front of what follows in the file. -/
inductive PackageClause (follows : List Token) : List Token → Option Ident → Prop
  | absent : PackageClause follows [] none
  | present {word name : Token} {commas : List Token} {s : String} : word.kind = .package → name.kind = .ident s →
    Separator commas follows → PackageClause follows (word :: name :: commas) (some ⟨s, name.span⟩)

/-- The parts of a file. Each is separated from whatever follows it before the end of the text. -/
inductive File (revision : Revision) (n : Nat) : List Token → Syntax.File → Prop
  | file {commas package : List Token} {name : Option Ident} {imports : List (Piece (List Import))}
      {decls : List (Piece Decl)} {finish : Token} :
    Commas commas → PackageClause (written imports ++ written decls) package name →
    (∀ p ∈ imports, ImportDecl p.tokens p.tree) → Separated (written decls) imports →
    (∀ p ∈ decls, Declaration revision n p.tokens p.tree) → Separated [] decls → finish.kind = .eof →
    File revision n (commas ++ (package ++ written imports ++ written decls) ++ [finish])
      ⟨name, (trees imports).flatten, trees decls,
        ((package ++ written imports ++ written decls).head?.getD finish).doc, []⟩

end StackLattice.Syntax.Grammar
