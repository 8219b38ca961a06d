import StackLattice.Proofs.Syntax.Nodes
import StackLattice.Proofs.Syntax.Positions

/-!
The spans of nodes. Whether it is kept with a node or put together from those of what stands in it, the span of a node
runs from the first to the last of the tokens that the node is read from.
-/

namespace StackLattice.Syntax

open Grammar
open Text (Boundary byteLength)

/-- Tokens that stand one behind the other. -/
structure InOrder (ts : List Token) : Prop where
  apart : ts.Pairwise fun first last => first.span.stop ≤ last.span.start
  forwards : ∀ t ∈ ts, t.span.start ≤ t.span.stop

namespace InOrder

variable {ts us : List Token}

theorem left (h : InOrder (ts ++ us)) : InOrder ts :=
  ⟨(List.pairwise_append.mp h.apart).1, (List.forall_mem_append.mp h.forwards).1⟩

theorem right (h : InOrder (ts ++ us)) : InOrder us :=
  ⟨(List.pairwise_append.mp h.apart).2.1, (List.forall_mem_append.mp h.forwards).2⟩

theorem tail {t : Token} (h : InOrder (t :: ts)) : InOrder ts :=
  ⟨h.apart.tail, fun u member => h.forwards u (List.mem_cons_of_mem t member)⟩

theorem across (h : InOrder (ts ++ us)) {t u : Token} (before : t ∈ ts) (after : u ∈ us) :
    t.span.stop ≤ u.span.start := (List.pairwise_append.mp h.apart).2.2 t before u after

end InOrder

/-- From the first of some tokens to the last, both of which stand in the text. -/
def Spans (ts : List Token) (span : Span) : Prop :=
  ∃ first last, ts.head? = some first ∧ ts.getLast? = some last ∧ first.kind.Written ∧ last.kind.Written ∧
    span = ⟨first.span.start, last.span.stop⟩

namespace Spans

variable {ts gap us : List Token} {a b : Span}

theorem single {t : Token} {kind : TokenKind} (is : t.kind = kind) (written : kind.Written) : Spans [t] t.span :=
  ⟨t, t, rfl, rfl, is ▸ written, is ▸ written, rfl⟩

/-- Whatever stands between tokens that are in order belongs to the merge of their spans. -/
theorem merge (first : Spans ts a) (last : Spans us b) (ordered : InOrder (ts ++ gap ++ us)) :
    Spans (ts ++ gap ++ us) (a.merge b) := by
  obtain ⟨t, t', head, getLast, written, _, rfl⟩ := first
  obtain ⟨u, u', head', getLast', _, written', rfl⟩ := last
  have inside {t : Token} (member : t ∈ ts) : t ∈ ts ++ gap := List.mem_append_left gap member
  have started := ordered.across (inside (List.mem_of_mem_head? head)) (List.mem_of_mem_head? head')
  have stopped := ordered.across (inside (List.mem_of_getLast? getLast)) (List.mem_of_getLast? getLast')
  have forwards := ordered.forwards t (List.mem_append_left us (inside (List.mem_of_mem_head? head)))
  have forwards' := ordered.forwards u' (List.mem_append_right _ (List.mem_of_getLast? getLast'))
  refine ⟨t, u', ?_, ?_, written, written', ?_⟩
  · rw [List.append_assoc, List.head?_append, head]
    rfl
  · rw [List.getLast?_append, getLast']
    rfl
  · rw [Span.merge, Nat.min_eq_left (Nat.le_trans forwards started), Nat.max_eq_right (Nat.le_trans stopped forwards')]

theorem covers (h : Spans ts a) (ordered : InOrder ts) {t : Token} (member : t ∈ ts) :
    a.start ≤ t.span.start ∧ t.span.stop ≤ a.stop := by
  obtain ⟨first, last, head, getLast, _, _, rfl⟩ := h
  constructor
  · obtain ⟨rest, rfl⟩ := List.head?_eq_some_iff.mp head
    rcases List.mem_cons.mp member with rfl | behind
    · exact Nat.le_refl _
    · have before := (List.pairwise_cons.mp ordered.apart).1 t behind
      exact Nat.le_trans (ordered.forwards first List.mem_cons_self) before
  · obtain ⟨rest, rfl⟩ := List.getLast?_eq_some_iff.mp getLast
    rcases List.mem_append.mp member with before | same
    · have behind := ordered.across before (List.mem_singleton_self last)
      exact Nat.le_trans behind (ordered.forwards last (List.mem_append_right _ (List.mem_singleton_self last)))
    · exact Nat.le_of_eq (by rw [List.mem_singleton.mp same])

end Spans

section Trees

variable {revision : Revision}

theorem Grammar.Leaf.spans {t : Token} {e : Expr} (h : Leaf t e) : Spans [t] e.span := by
  cases h with
  | null is | true is | false is | int is | float is | string is | ident is => exact .single is ⟨nofun, nofun⟩

theorem Grammar.Selected.spans {t : Token} {name : String} (h : Selected t name) : Spans [t] t.span := by
  cases h with
  | ident is | string is => exact .single is ⟨nofun, nofun⟩

theorem Grammar.Labels.spans {t : Token} {label : Label} (h : Labels t label) : Spans [t] label.span := by
  cases h with
  | name is | string is => exact .single is ⟨nofun, nofun⟩

theorem spans_brackets {opening closing : Token} {ts : List Token} (opens : Spans [opening] opening.span)
    (closes : Spans [closing] closing.span) (ordered : InOrder (opening :: ts ++ [closing])) :
    Spans (opening :: ts ++ [closing]) (opening.span.merge closing.span) := by
  have whole : opening :: ts ++ [closing] = [opening] ++ ts ++ [closing] := rfl
  rw [whole] at ordered ⊢
  exact opens.merge closes ordered

mutual

theorem Grammar.Expression.spans : ∀ {n : Nat} {ts : List Token} {e : Expr},
    Expression revision n ts e → InOrder ts → Spans ts e.span
  | _, _, _, .disjunction first rest => fun ordered => rest.spans (first.spans ordered.left) ordered

theorem Grammar.Disjoined.spans : ∀ {n : Nat} {left e : Expr} {ts us : List Token},
    Disjoined revision n left us e → Spans ts left.span → InOrder (ts ++ us) → Spans (ts ++ us) e.span
  | _, _, _, _, _, .done => fun first _ => by rwa [List.append_nil]
  | _, left, _, ts, _, @Disjoined.more _ _ bar vs us _ right e _ operand rest => fun first ordered => by
    have whole : ts ++ (bar :: vs ++ us) = ts ++ [bar] ++ vs ++ us := by simp
    rw [whole] at ordered ⊢
    exact rest.spans (first.merge (operand.spans ordered.left.right) ordered.left) ordered

theorem Grammar.Unification.spans : ∀ {n : Nat} {ts : List Token} {e : Expr},
    Unification revision n ts e → InOrder ts → Spans ts e.span
  | _, _, _, .unification first rest => fun ordered => rest.spans (first.spans ordered.left) ordered

theorem Grammar.Unified.spans : ∀ {n : Nat} {left e : Expr} {ts us : List Token},
    Unified revision n left us e → Spans ts left.span → InOrder (ts ++ us) → Spans (ts ++ us) e.span
  | _, _, _, _, _, .done => fun first _ => by rwa [List.append_nil]
  | _, left, _, ts, _, @Unified.more _ _ ampersand vs us _ right e _ operand rest => fun first ordered => by
    have whole : ts ++ (ampersand :: vs ++ us) = ts ++ [ampersand] ++ vs ++ us := by simp
    rw [whole] at ordered ⊢
    exact rest.spans (first.merge (operand.spans ordered.left.right) ordered.left) ordered

theorem Grammar.Unary.spans : ∀ {n : Nat} {ts : List Token} {e : Expr},
    Unary revision n ts e → InOrder ts → Spans ts e.span
  | _, _, _, @Unary.negated _ _ op ts e is operand => fun ordered =>
    @Spans.merge [op] [] ts _ _ (.single is (by decide)) (operand.spans ordered.tail) ordered
  | _, _, _, @Unary.marked _ _ op ts e is operand => fun ordered =>
    @Spans.merge [op] [] ts _ _ (.single is (by decide)) (operand.spans ordered.tail) ordered
  | _, _, _, .postfixed first rest => fun ordered => rest.spans (first.spans ordered.left) ordered

theorem Grammar.Selection.spans : ∀ {n : Nat} {base e : Expr} {ts us : List Token},
    Selection revision n base us e → Spans ts base.span → InOrder (ts ++ us) → Spans (ts ++ us) e.span
  | _, _, _, _, _, .done => fun first _ => by rwa [List.append_nil]
  | _, _, _, ts, _, @Selection.more _ _ dot name _ us _ _ _ named rest => fun first ordered => by
    have whole : ts ++ (dot :: name :: us) = ts ++ [dot] ++ [name] ++ us := by simp
    rw [whole] at ordered ⊢
    exact rest.spans (first.merge named.spans ordered.left) ordered

theorem Grammar.Primary.spans : ∀ {n : Nat} {ts : List Token} {e : Expr},
    Primary revision n ts e → InOrder ts → Spans ts e.span
  | _, _, _, .leaf leaf => fun _ => leaf.spans
  | _, _, _, .struct opens _ _ _ closes | _, _, _, .list opens _ _ _ closes | _, _, _, .paren opens _ closes =>
    fun ordered => spans_brackets (.single opens (by decide)) (.single closes (by decide)) ordered

theorem Grammar.FieldDecl.spans : ∀ {n : Nat} {ts : List Token} {d : Decl},
    FieldDecl revision n ts d → InOrder ts → Spans ts d.span
  | _, _, _, @FieldDecl.field _ _ name colon mark ts _ _ _ _ labels _ _ value => fun ordered => by
    have whole : name :: mark ++ colon :: ts = [name] ++ (mark ++ [colon]) ++ ts := by simp
    rw [whole] at ordered ⊢
    exact labels.spans.merge (value.spans ordered.right) ordered

theorem Grammar.FieldValue.spans : ∀ {n : Nat} {ts : List Token} {e : Expr},
    FieldValue revision n ts e → InOrder ts → Spans ts e.span
  | _, _, _, .expression value => fun ordered => value.spans ordered
  | _, _, _, .field field => fun ordered => field.spans ordered

end

end Trees

namespace Node

variable {revision : Revision} {ts : List Token} {node : Node} {nodes : List Node}

theorem ReadFrom.spans (h : ReadFrom revision ts node) (ordered : InOrder ts) : Spans ts node.span := by
  cases h with
  | name selected => exact selected.spans
  | label kind labels => exact labels.spans
  | importing clause =>
    cases clause with
    | plain is =>
      simp only [span, Span.merge, Nat.min_self, Nat.max_self]
      exact .single is ⟨nofun, nofun⟩
    | @named name path s as isName isPath =>
      exact @Spans.merge [name] [] [path] _ _ (.single isName ⟨nofun, nofun⟩) (.single isPath ⟨nofun, nofun⟩) ordered
  | decl declaration =>
    cases declaration with
    | field field => exact field.spans ordered
    | embed value => exact value.spans ordered
  | expr expression => exact expression.spans ordered
  | implied field => exact field.spans ordered

/-- What is read from a part of some tokens lies within them. -/
theorem span_within {before part after : List Token} {a : Span} (whole : Spans (before ++ part ++ after) a)
    (ordered : InOrder (before ++ part ++ after)) (read : ReadFrom revision part node) :
    a.start ≤ node.span.start ∧ node.span.stop ≤ a.stop := by
  have inside {t : Token} (member : t ∈ part) : t ∈ before ++ part ++ after :=
    List.mem_append_left after (List.mem_append_right before member)
  obtain ⟨first, last, head, getLast, _, _, same⟩ := read.spans ordered.left.right
  rw [same]
  exact ⟨(whole.covers ordered (inside (List.mem_of_mem_head? head))).1,
    (whole.covers ordered (inside (List.mem_of_getLast? getLast))).2⟩

theorem Spread.apart (h : Spread revision ts nodes) (ordered : InOrder ts) :
    nodes.Pairwise fun first last => first.span.stop ≤ last.span.start := by
  induction h with
  | done => exact .nil
  | @next gap part rest first others read spread ih =>
    refine .cons (fun last member => ?_) (ih ordered.right)
    obtain ⟨_, end', _, getLast, _, _, same⟩ := read.spans ordered.left.right
    obtain ⟨before, part', after, rfl, read'⟩ := spread.exists_part member
    obtain ⟨start', _, head, _, _, _, same'⟩ := read'.spans ordered.right.left.right
    rw [same, same']
    refine ordered.across (List.mem_append_right gap (List.mem_of_getLast? getLast)) ?_
    exact List.mem_append_left after (List.mem_append_right before (List.mem_of_mem_head? head))

end Node

/-- Between two boundaries of a text there are characters of it. -/
theorem slice_ne_empty {text : String} {a b : Nat} (first : Boundary text.toList a) (last : Boundary text.toList b)
    (filled : a < b) : Span.slice ⟨a, b⟩ text ≠ "" := by
  obtain ⟨before, between, after, whole, some, rfl, rfl⟩ := first.split last filled
  rw [Text.byteLength_append, Span.slice_eq whole]
  intro empty
  exact some (by simpa using congrArg String.toList empty)

/-- The span of a node runs over the tokens that the node is read from, within the span of what the node stands in and
    apart from those of its siblings, and there is text in it. -/
structure Node.Exact (text : String) (revision : Revision) (tokens : List Token) (node : Node) : Prop where
  tokens : ∃ before ts after first last, tokens = before ++ ts ++ after ∧ node.ReadFrom revision ts ∧
    ts.head? = some first ∧ ts.getLast? = some last ∧ node.span = ⟨first.span.start, last.span.stop⟩
  within : ∀ child ∈ node.children, node.span.start ≤ child.span.start ∧ child.span.stop ≤ node.span.stop
  apart : node.children.Pairwise fun first last => first.span.stop ≤ last.span.start
  aligned : Boundary text.toList node.span.start ∧ Boundary text.toList node.span.stop
  filled : node.span.slice text ≠ ""

/-- The tokens of a text are in order. -/
theorem Scanner.tokens_inOrder {text : String} {keepComments : Bool} {tokens : List Token} {t : Scanner}
    (h : (ofString text keepComments).tokens = (.ok tokens, t)) : InOrder tokens := by
  have run := run_of_tokens h
  have within : Text.Input.Reaches ⟨text.toList, 0⟩ (ofString text keepComments).input := .refl _
  refine ⟨run.ordered, fun token member => ?_⟩
  by_cases written : token.kind.Written
  · exact Nat.le_of_lt (run.filled token member written)
  · obtain ⟨init, last, rfl, _, place, inside⟩ := run.ends_text within
    rcases List.mem_append.mp member with before | same
    · have comma : token.kind = .comma true := by
        by_contra other
        exact written ⟨inside token before, other⟩
      exact Nat.le_of_eq (run.inserted within token member comma).1
    · rw [List.mem_singleton.mp same, place]
      exact Nat.le_refl _

/-- The spans of a text that is accepted are exact. -/
theorem File.spans_exact {source : SourceText} {revision : Revision} {keepComments : Bool} {f : File}
    (accepted : File.ofSource source revision keepComments = .ok f) :
    ∃ tokens scanner, (Scanner.ofString source.text keepComments).tokens = (.ok tokens, scanner) ∧
      (∀ node, f.Has node → node.Exact source.text revision tokens) ∧
      f.roots.Pairwise fun first last => first.span.stop ≤ last.span.start := by
  obtain ⟨tokens, scanner, tree, scanned, derived, rfl⟩ := File.exists_derived accepted
  have ordered := Scanner.tokens_inOrder scanned
  have run := Scanner.run_of_tokens scanned
  have roots : Node.Spread revision tokens { tree with comments := scanner.comments }.roots := derived.spread
  refine ⟨tokens, scanner, scanned, fun node has => ?_, roots.apart ordered⟩
  obtain ⟨before, ts, after, rfl, read⟩ := has.exists_tokens roots
  have spans := read.spans ordered.left.right
  obtain ⟨first, last, head, getLast, written, _, same⟩ := read.spans ordered.left.right
  have inside {t : Token} (member : t ∈ ts) : t ∈ before ++ ts ++ after :=
    List.mem_append_left after (List.mem_append_right before member)
  have isFirst := inside (List.mem_of_mem_head? head)
  have isLast := inside (List.mem_of_getLast? getLast)
  have start : Boundary source.text.toList node.span.start := by
    rw [same]
    exact (run.aligned (.refl _) first isFirst).1
  have stop : Boundary source.text.toList node.span.stop := by
    rw [same]
    exact (run.aligned (.refl _) last isLast).2
  have filled : node.span.start < node.span.stop := by
    have some := run.filled first isFirst written
    have covered := (spans.covers ordered.left.right (List.mem_of_mem_head? head)).2
    rw [same] at covered ⊢
    exact Nat.lt_of_lt_of_le some covered
  refine ⟨⟨before, ts, after, first, last, rfl, read, head, getLast, same⟩, fun child member => ?_,
    read.spread.apart ordered.left.right, ⟨start, stop⟩, slice_ne_empty start stop filled⟩
  obtain ⟨before', part, after', rfl, read'⟩ := read.spread.exists_part member
  exact Node.span_within spans ordered.left.right read'

/-- A named import, and a label in front of a label whose value has operators, selectors and brackets. -/
theorem File.spans_exact_nested :
    let source : SourceText := ⟨"a.cue", "import a \"b\"\nx: é: -(1 & a.\"ü\") | [\x7b\x7d, *null]\n"⟩
    ∃ f tokens scanner, File.ofSource source .current true = .ok f ∧
      (f.roots.flatMap Node.children).map Node.span = [⟨7, 8⟩, ⟨13, 14⟩, ⟨16, 47⟩] ∧
      (Scanner.ofString source.text true).tokens = (.ok tokens, scanner) ∧
      ∀ node, f.Has node → node.Exact source.text .current tokens := by
  intro source
  have spans : (File.ofSource source .current true).toOption.map
      (fun f => (f.roots.flatMap Node.children).map Node.span) = some [⟨7, 8⟩, ⟨13, 14⟩, ⟨16, 47⟩] := by
    decide +kernel
  rcases accepted : File.ofSource source .current true with _ | f <;> rw [accepted] at spans
  · cases spans
  · obtain ⟨tokens, scanner, scanned, exact', _⟩ := File.spans_exact accepted
    exact ⟨f, tokens, scanner, rfl, Option.some.inj spans, scanned, exact'⟩

end StackLattice.Syntax
