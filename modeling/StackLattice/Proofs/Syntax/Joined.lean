import StackLattice.Proofs.Syntax.Accepted
import StackLattice.Proofs.Syntax.Bare
import StackLattice.Proofs.Syntax.Lexing

/-!
Texts one behind the other. The line break between them ends the last declaration of the first, as the end of the text
does, so that the declarations of both are read.
-/

namespace StackLattice.Syntax

open Grammar

/-- Tokens the last of which ends a declaration at a line break. -/
def Closes (ts : List Token) : Prop := ∃ us t, ts = us ++ [t] ∧ t.kind.endsLine = true

namespace Closes

variable {ts us : List Token} {t : Token}

theorem behind (h : Closes us) (ts : List Token) : Closes (ts ++ us) := by
  obtain ⟨us, t, rfl, closes⟩ := h
  exact ⟨ts ++ us, t, (List.append_assoc ..).symm, closes⟩

theorem before (h : Closes ts) (rest : us = [] ∨ Closes us) : Closes (ts ++ us) := by
  rcases rest with rfl | closes
  · rwa [List.append_nil]
  · exact closes.behind ts

theorem single {kind : TokenKind} (is : t.kind = kind) (closes : kind.endsLine = true) : Closes [t] :=
  ⟨[], t, rfl, is ▸ closes⟩

end Closes

section Ends

variable {revision : Revision}

theorem leaf_closes {t : Token} {e : Expr} (h : Leaf t e) : Closes [t] := by
  cases h with
  | _ is => exact .single is rfl

theorem selected_closes {t : Token} {name : String} (h : Selected t name) : Closes [t] := by
  cases h with
  | ident is | string is => exact .single is rfl

mutual

theorem Grammar.Expression.closes : ∀ {n : Nat} {ts : List Token} {e : Expr},
    Expression revision n ts e → Closes ts
  | _, _, _, .disjunction first rest => first.closes.before rest.closes

theorem Grammar.Disjoined.closes : ∀ {n : Nat} {left : Expr} {ts : List Token} {e : Expr},
    Disjoined revision n left ts e → ts = [] ∨ Closes ts
  | _, _, _, _, .done => .inl rfl
  | _, _, _, _, .more _ next rest => .inr ((next.closes.behind [_]).before rest.closes)

theorem Grammar.Unification.closes : ∀ {n : Nat} {ts : List Token} {e : Expr},
    Unification revision n ts e → Closes ts
  | _, _, _, .unification first rest => first.closes.before rest.closes

theorem Grammar.Unified.closes : ∀ {n : Nat} {left : Expr} {ts : List Token} {e : Expr},
    Unified revision n left ts e → ts = [] ∨ Closes ts
  | _, _, _, _, .done => .inl rfl
  | _, _, _, _, .more _ next rest => .inr ((next.closes.behind [_]).before rest.closes)

theorem Grammar.Unary.closes : ∀ {n : Nat} {ts : List Token} {e : Expr}, Unary revision n ts e → Closes ts
  | _, _, _, .negated _ operand | _, _, _, .marked _ operand => operand.closes.behind [_]
  | _, _, _, .postfixed first rest => first.closes.before rest.closes

theorem Grammar.Selection.closes : ∀ {n : Nat} {base : Expr} {ts : List Token} {e : Expr},
    Selection revision n base ts e → ts = [] ∨ Closes ts
  | _, _, _, _, .done => .inl rfl
  | _, _, _, _, .more _ name rest => .inr (((selected_closes name).before rest.closes).behind [_])

theorem Grammar.Primary.closes : ∀ {n : Nat} {ts : List Token} {e : Expr}, Primary revision n ts e → Closes ts
  | _, _, _, .leaf leaf => leaf_closes leaf
  | _, _, _, .struct _ _ _ _ closing | _, _, _, .list _ _ _ _ closing | _, _, _, .paren _ _ closing =>
    (Closes.single closing rfl).behind _

end

mutual

theorem Grammar.Declaration.closes : ∀ {n : Nat} {ts : List Token} {decl : Decl},
    Declaration revision n ts decl → Closes ts
  | _, _, _, .field field => field.closes
  | _, _, _, .embed value => value.closes

theorem Grammar.FieldDecl.closes : ∀ {n : Nat} {ts : List Token} {decl : Decl},
    FieldDecl revision n ts decl → Closes ts
  | _, _, _, .field _ _ _ value => (value.closes.behind [_]).behind _

theorem Grammar.FieldValue.closes : ∀ {n : Nat} {ts : List Token} {e : Expr},
    FieldValue revision n ts e → Closes ts
  | _, _, _, .expression value => value.closes
  | _, _, _, .field field => field.closes

end

theorem Grammar.ImportClause.closes {ts : List Token} {i : Import} (h : ImportClause ts i) : Closes ts := by
  cases h with
  | plain is => exact .single is rfl
  | named _ is => exact (Closes.single is rfl).behind [_]

theorem Grammar.ImportDecl.closes {ts : List Token} {is : List Import} (h : ImportDecl ts is) : Closes ts := by
  cases h with
  | single _ clause => exact clause.closes.behind [_]
  | group _ _ _ _ _ closing => exact (Closes.single closing rfl).behind _

end Ends

section Pieces

variable {α : Type} {pieces more : List (Piece α)} {follows : List Token}

def Divided (pieces : List (Piece α)) : Prop := ∀ p ∈ pieces, Commas p.commas ∧ p.commas ≠ []

theorem written_append (pieces more : List (Piece α)) : written (pieces ++ more) = written pieces ++ written more :=
  List.flatMap_append

theorem trees_append (pieces more : List (Piece α)) : trees (pieces ++ more) = trees pieces ++ trees more :=
  List.map_append

theorem Divided.separated (divided : Divided pieces) (rest : Separated follows more) :
    Separated follows (pieces ++ more) := by
  induction pieces with
  | nil => exact rest
  | cons p ps ih =>
    obtain ⟨⟨commas, some⟩, divided⟩ := List.forall_mem_cons.mp divided
    exact ⟨⟨commas, fun none => absurd none some⟩, ih divided⟩

theorem Divided.alone (divided : Divided pieces) : Separated follows pieces := by
  have whole := divided.separated (show Separated follows [] from trivial)
  rwa [List.append_nil] at whole

/-- Separated pieces have commas behind each of them, unless the last of them ends the text. -/
theorem divided_of_separated (filled : ∀ p ∈ pieces, Closes p.tokens) (separated : Separated follows pieces)
    (continues : follows = [] → ¬Closes (written pieces)) : Divided pieces := by
  induction pieces with
  | nil => exact List.forall_mem_nil _
  | cons p ps ih =>
    obtain ⟨⟨commas, last⟩, separated⟩ := separated
    obtain ⟨closes, filled⟩ := List.forall_mem_cons.mp filled
    refine List.forall_mem_cons.mpr ⟨⟨commas, fun none => ?_⟩, ih filled separated fun ends closed => ?_⟩
    · obtain ⟨nothing, ends⟩ := List.append_eq_nil_iff.mp (last none)
      refine continues ends ?_
      rwa [written_cons, none, nothing, List.append_nil, List.append_nil]
    · rw [written_cons] at continues
      exact continues ends (closed.behind _)

/-- Further commas behind pieces are commas behind the last of them. -/
theorem exists_written_commas {commas : List Token} (areCommas : Commas commas) (some : pieces ≠ []) :
    ∃ pieces', written pieces' = written pieces ++ commas ∧ trees pieces' = trees pieces ∧
      (Divided pieces → Divided pieces') ∧
      ∀ derives : List Token → α → Prop, (∀ p ∈ pieces, derives p.tokens p.tree) →
        ∀ p ∈ pieces', derives p.tokens p.tree := by
  obtain ⟨init, last, rfl⟩ := (List.eq_nil_or_concat' pieces).resolve_left some
  refine ⟨init ++ [⟨last.tokens, last.commas ++ commas, last.tree⟩], ?_, ?_, fun divided => ?_, fun derives each => ?_⟩
  · simp [written]
  · simp [trees]
  · unfold Divided at *
    rw [List.forall_mem_append, List.forall_mem_singleton] at divided ⊢
    obtain ⟨first, old, filled⟩ := divided
    exact ⟨first, List.forall_mem_append.mpr ⟨old, areCommas⟩, List.append_ne_nil_of_left_ne_nil filled _⟩
  · rw [List.forall_mem_append, List.forall_mem_singleton] at each ⊢
    exact each

end Pieces

section Files

variable {revision : Revision} {n : Nat}

/-- Behind a package clause that something follows may stand anything else. -/
theorem packageClause_follows {follows follows' ts : List Token} {name : Option Ident}
    (h : PackageClause follows ts name) (continues : follows = [] → ¬Closes ts) :
    PackageClause follows' ts name := by
  cases h with
  | absent => exact .absent
  | @present word name commas _ isWord isName separator =>
    refine .present isWord isName ⟨separator.1, fun none => ?_⟩
    have closes : Closes [word, name] := (Closes.single isName rfl).behind [word]
    rw [none] at continues
    exact absurd closes (continues (separator.2 none))

theorem packageClause_commas {follows ts commas : List Token} {name : Option Ident}
    (h : PackageClause follows ts name) (areCommas : Commas commas) (some : ts ≠ []) :
    PackageClause follows (ts ++ commas) name := by
  cases h with
  | absent => exact absurd rfl some
  | present isWord isName separator =>
    refine .present isWord isName ⟨List.forall_mem_append.mpr ⟨separator.1, areCommas⟩, fun none => ?_⟩
    exact separator.2 (List.append_eq_nil_iff.mp none).1

theorem Grammar.File.of_eq {ts us : List Token} {f : Syntax.File} (h : Grammar.File revision n ts f) (same : ts = us) :
    Grammar.File revision n us f := same ▸ h

theorem Grammar.ImportDecl.starts {ts : List Token} {is : List Import} (h : ImportDecl ts is) :
    ∃ word us, ts = word :: us ∧ word.kind = .importing := by
  cases h with
  | single importing _ | group importing _ _ _ _ _ => exact ⟨_, _, rfl, importing⟩

/-- A file and the declarations of another one behind it. -/
theorem Grammar.File.append {first second : List Token} {finish : Token} {f g : Syntax.File}
    (ofFirst : Grammar.File revision n (first ++ [finish]) f)
    (ofSecond : Grammar.File revision n (second ++ [finish]) g) (ended : ¬Closes first) (bare : g.package = none)
    (early : f.decls = [] ∨ ∀ t ∈ second, t.kind ≠ .importing) :
    ∃ joined, Grammar.File revision n (first ++ second ++ [finish]) joined ∧ joined.package = f.package ∧
      joined.imports = f.imports ++ g.imports ∧ joined.decls = f.decls ++ g.decls := by
  generalize eq : first ++ [finish] = ts at ofFirst
  generalize eq' : second ++ [finish] = us at ofSecond
  cases ofFirst with
  | @file commas package name groups decls last areCommas isPackage areImports separated areDecls separated' eof =>
  cases ofSecond with
  | @file commas' package' name' groups' decls' last' areCommas' isPackage' areImports' separated'' areDecls' separated''' eof' =>
  obtain ⟨rfl, same⟩ := List.append_inj' eq rfl
  obtain ⟨rfl, -⟩ := List.append_inj' eq' rfl
  cases same
  cases isPackage' with
  | present => cases bare
  | absent =>
  -- Whatever ends the first file has commas behind it.
  have divided : Divided decls := divided_of_separated (fun p member => (areDecls p member).closes) separated'
    fun _ closes => ended ((closes.behind _).behind _)
  have divided' : Divided groups := divided_of_separated (fun p member => (areImports p member).closes) separated
    fun none closes => ended (by
      rw [none, List.append_nil]
      exact (closes.behind _).behind _)
  have head {follows : List Token} : PackageClause follows package name :=
    packageClause_follows isPackage fun none closes => ended (by
      rw [List.append_assoc, none, List.append_nil]
      exact closes.behind _)
  -- The commas in front of the second file go to what is last in the first one: a declaration, an import, the package
  -- clause, or the commas before all of them.
  by_cases noDecls : decls = []
  · subst noDecls
    by_cases noGroups : groups = []
    · subst noGroups
      by_cases noPackage : package = []
      · subst noPackage
        have derived := Grammar.File.file (List.forall_mem_append.mpr ⟨areCommas, areCommas'⟩) head areImports'
          separated'' areDecls' separated''' eof
        exact ⟨_, derived.of_eq (by simp [written]), rfl, rfl, rfl⟩
      · have derived := Grammar.File.file areCommas (packageClause_commas head areCommas' noPackage) areImports'
          separated'' areDecls' separated''' eof
        exact ⟨_, derived.of_eq (by simp [written]), rfl, rfl, rfl⟩
    · obtain ⟨pieces, tokens, same, divides, derives⟩ := exists_written_commas areCommas' noGroups
      have derived := Grammar.File.file areCommas head
        (List.forall_mem_append.mpr ⟨derives _ areImports, areImports'⟩) ((divides divided').separated separated'')
        areDecls' separated''' eof
      refine ⟨_, derived.of_eq ?_, rfl, ?_, rfl⟩
      · rw [written_append, tokens]
        simp [written]
      · rw [trees_append, same, List.flatten_append]
  · have noImports : groups' = [] := by
      cases groups' with
      | nil => rfl
      | cons p ps =>
        have noneLate := early.resolve_left fun none => noDecls (List.map_eq_nil_iff.mp none)
        obtain ⟨word, us, tokens, importing⟩ := (areImports' p List.mem_cons_self).starts
        exact absurd importing (noneLate word (by simp [written_cons, tokens]))
    subst noImports
    obtain ⟨pieces, tokens, same, divides, derives⟩ := exists_written_commas areCommas' noDecls
    have derived := Grammar.File.file areCommas head areImports divided'.alone
      (List.forall_mem_append.mpr ⟨derives _ areDecls, areDecls'⟩) ((divides divided).separated separated''') eof
    refine ⟨_, derived.of_eq ?_, rfl, ?_, ?_⟩
    · rw [written_append, tokens]
      simp [written]
    · exact (List.append_nil _).symm
    · rw [trees_append, same]

end Files

section Texts

/-- After the last kind that is read stands a pending comma if it ends a declaration. -/
theorem Lexes.pending {p q : Bool} {cs rest : List Char} {ks : List TokenKind} (h : Lexes p cs ks q rest) :
    q = (ks.getLast?.map TokenKind.endsLine).getD p := by
  induction h with
  | done => rfl
  | blank _ _ _ ih | line _ ih | comment _ ih => exact ih
  | @inserted q cs rest ks _ ih =>
    rw [ih, List.getLast?_cons]
    cases ks.getLast? <;> rfl
  | @token p q c cs left rest kind ks _ _ _ ih =>
    rw [ih, List.getLast?_cons]
    cases ks.getLast? <;> rfl

/-- No text ends in a token that would end a declaration. -/
theorem not_closes_of_lexes {q : Bool} {cs : List Char} {ks : List TokenKind} (h : Lexes false cs ks q [])
    {ts : List Token} (kinds : ts.map (·.kind) = ks ++ if q then [.comma true] else []) : ¬Closes ts := by
  rintro ⟨us, t, rfl, closes⟩
  rw [List.map_append, List.map_singleton] at kinds
  have pending := h.pending
  cases q with
  | true =>
    have last := (List.append_inj' kinds rfl).2
    rw [List.singleton_inj.mp last] at closes
    cases closes
  | false =>
    rw [if_neg Bool.false_ne_true, List.append_nil] at kinds
    rw [← kinds, List.getLast?_concat, Option.map_some, Option.getD_some, closes] at pending
    cases pending

theorem ending_eq (q : Bool) : ending q = (if q then [.comma true] else []) ++ [.eof] := by
  cases q <;> rfl

/-- The tokens of a text up to its end. -/
theorem exists_lexes {text : String} {keepComments : Bool} {tokens : List Token} {t : Scanner}
    (scanned : (Scanner.ofString text keepComments).tokens = (.ok tokens, t)) :
    ∃ ks q body finish, Lexes false text.toList ks q [] ∧ tokens = body ++ [finish] ∧ finish.kind = .eof ∧
      body.map (·.kind) = ks ++ (if q then [.comma true] else []) := by
  obtain ⟨ks, q, lexes, kinds⟩ := lexes_of_tokens scanned
  obtain ⟨body, finish, rfl, -, eof⟩ := Scanner.tokens_eq_ok scanned
  rw [List.map_append, List.map_singleton, eof, ending_eq, ← List.append_assoc] at kinds
  exact ⟨ks, q, body, finish, lexes, rfl, eof, (List.append_inj' kinds rfl).1⟩

/-- Whether the word `import` stands in a text. -/
def Importless (text : String) : Prop :=
  ∀ tokens t, (Scanner.ofString text false).tokens = (.ok tokens, t) → ∀ token ∈ tokens, token.kind ≠ .importing

/-- What counts is the kinds of the tokens, not where they stand. -/
theorem Importless.not_importing {text : String} (importless : Importless text) {q : Bool} {ks : List TokenKind}
    (lexes : Lexes false text.toList ks q []) {ts : List Token}
    (kinds : ts.map (·.kind) = ks ++ if q then [.comma true] else []) {token : Token} (member : token ∈ ts) :
    token.kind ≠ .importing := by
  intro importing
  obtain ⟨tokens, t, scanned, all⟩ := lexes.reads (Scanner.ofString text false) rfl rfl
  have inside : token.kind ∈ tokens.map (·.kind) := by
    rw [all, ending_eq, ← List.append_assoc, ← kinds]
    exact List.mem_append_left _ (List.mem_map_of_mem member)
  obtain ⟨token', inside, same⟩ := List.mem_map.mp inside
  exact importless tokens t scanned token' inside (same.trans importing)

/-- Behind a text that is accepted, another one is accepted that has no package clause, and no word `import` unless
    nothing is declared before it. -/
theorem File.ofSource_joined {path path₁ path₂ first second : String} {revision : Revision}
    {keep keep₁ keep₂ : Bool} {f g : File} (acceptedFirst : File.ofSource ⟨path₁, first⟩ revision keep₁ = .ok f)
    (acceptedSecond : File.ofSource ⟨path₂, second⟩ revision keep₂ = .ok g) (noPackage : g.package = none)
    (early : f.decls = [] ∨ Importless second) :
    ∃ joined, File.ofSource ⟨path, first ++ "\n" ++ second⟩ revision keep = .ok joined ∧
      joined.imports.map Import.bare = (f.imports ++ g.imports).map Import.bare ∧
      joined.decls.map Decl.bare = (f.decls ++ g.decls).map Decl.bare := by
  obtain ⟨tokens₁, t₁, tree₁, scanned₁, derived₁, rfl⟩ := File.exists_derived acceptedFirst
  obtain ⟨tokens₂, t₂, tree₂, scanned₂, derived₂, rfl⟩ := File.exists_derived acceptedSecond
  obtain ⟨ks₁, q₁, body₁, finish₁, lexes₁, rfl, eof₁, kinds₁⟩ := exists_lexes scanned₁
  obtain ⟨ks₂, q₂, body₂, finish₂, lexes₂, rfl, eof₂, kinds₂⟩ := exists_lexes scanned₂
  have lexes := lexes₁.joined lexes₂
  rw [show first.toList ++ '\n' :: second.toList = (first ++ "\n" ++ second).toList by simp] at lexes
  obtain ⟨tokens, t, scanned, kinds⟩ := lexes.reads (Scanner.ofString (first ++ "\n" ++ second) keep) rfl rfl
  have alike : Alike (body₁ ++ (body₂ ++ [finish₂])) tokens := by
    unfold Alike
    rw [kinds, List.map_append, List.map_append, kinds₁, kinds₂, List.map_singleton, eof₂, ending_eq]
    simp only [List.append_assoc]
  -- The tokens of the whole text are those of the two texts, at other places and but for the end of the first.
  obtain ⟨a, _, rfl, alike₁, rest⟩ := alike.append
  obtain ⟨b, _, rfl, alike₂, last⟩ := rest.append
  obtain ⟨finish, rfl, eof⟩ := last.single
  have ends : Alike [finish₁] [finish] := by rw [Alike, List.map_singleton, List.map_singleton, eof₁, eof, eof₂]
  obtain ⟨f, ofFirst, same₁⟩ := derived₁.alike (alike₁.both ends)
  obtain ⟨g, ofSecond, same₂⟩ := derived₂.alike (alike₂.both last)
  have early : f.decls = [] ∨ ∀ t ∈ b, t.kind ≠ .importing := by
    refine early.imp (fun none => ?_) fun importless token => importless.not_importing lexes₂ (alike₂.symm.trans kinds₂)
    have none : tree₁.decls = [] := none
    have decls := congrArg (·.decls) same₁
    simpa [File.bare, none] using decls
  have noPackage : g.package = none := by
    have none : tree₂.package = none := noPackage
    have package := congrArg (·.package) same₂
    simpa [File.bare, none] using package.symm
  have ended : ¬Closes a := not_closes_of_lexes lexes₁ (alike₁.symm.trans kinds₁)
  obtain ⟨joined, derived, -, imports, decls⟩ := ofFirst.append ofSecond ended noPackage early
  refine ⟨_, File.ofSource_of_derived scanned (derived.of_eq (List.append_assoc ..)), ?_, ?_⟩
  · have ofFirst := congrArg (·.imports) same₁
    have ofSecond := congrArg (·.imports) same₂
    simp only [File.bare] at ofFirst ofSecond
    simp only [imports, List.map_append, ofFirst, ofSecond]
  · have ofFirst := congrArg (·.decls) same₁
    have ofSecond := congrArg (·.decls) same₂
    simp only [File.bare] at ofFirst ofSecond
    simp only [decls, List.map_append, ofFirst, ofSecond]

end Texts

end StackLattice.Syntax
