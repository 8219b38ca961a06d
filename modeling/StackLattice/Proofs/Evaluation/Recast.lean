import StackLattice.Proofs.Evaluation.Mentions
import StackLattice.Proofs.Syntax.Recast

/-!
What is gathered of bodies that are written in different ways. They mention the same wherever that counts: the
declarations of each label come in the same order, and what is said again of a label changes nothing.
-/

namespace StackLattice

open Syntax (Expr Decl Label ParsedFile)

/-- A file refers to the same imports by the same names. -/
def Syntax.ParsedFile.ImportsAs (f f' : ParsedFile) : Prop :=
  f.tree.imports.map (fun i => (i.localName, i.path)) = f'.tree.imports.map fun i => (i.localName, i.path)

theorem Syntax.ParsedFile.ImportsAs.find? {f f' : ParsedFile} (h : f.ImportsAs f') (name : String) :
    Option.Rel (fun i i' => i.path = i'.path) (f.tree.imports.find? (·.localName == name))
      (f'.tree.imports.find? (·.localName == name)) := by
  unfold ImportsAs at h
  generalize f.tree.imports = is, f'.tree.imports = is' at h
  induction is generalizing is' with
  | nil =>
    cases List.map_eq_nil_iff.mp h.symm
    exact .none
  | cons i is ih =>
    obtain ⟨i', rest, rfl, first, later⟩ := List.map_eq_cons_iff.mp h.symm
    obtain ⟨local_, path⟩ := Prod.mk.inj first
    rw [List.find?_cons, List.find?_cons, local_]
    cases i.localName == name with
    | true => exact .some path.symm
    | false => exact ih rest later.symm

namespace Evaluation

theorem operands_recast {e e' : Expr} (h : e.Recast e') : List.Forall₂ Expr.Recast (operands e) (operands e') := by
  match h with
  | .binary .disjoin first last =>
    rw [operands, operands]
    exact List.rel_append (operands_recast first) (operands_recast last)
  | h@(.null _ _) | h@(.bool _ _ _) | h@(.int _ _ _) | h@(.float _ _ _) | h@(.string _ _ _) | h@(.ident _ _ _)
  | h@(.select _ _ _ _) | h@(.struct _ _ _) | h@(.list _ _ _) | h@(.unary _ _ _ _) | h@(.binary .unify _ _)
  | h@(.paren _ _ _) =>
    rw [operands, operands]
    · exact .cons h .nil
    all_goals simp

theorem unmarked_recast {e e' : Expr} (h : e.Recast e') :
    (Closure.unmarked e).1 = (Closure.unmarked e').1 ∧ (Closure.unmarked e).2.Recast (Closure.unmarked e').2 := by
  match h with
  | .unary .mark _ _ inner => exact ⟨rfl, inner⟩
  | h@(.null _ _) | h@(.bool _ _ _) | h@(.int _ _ _) | h@(.float _ _ _) | h@(.string _ _ _) | h@(.ident _ _ _)
  | h@(.select _ _ _ _) | h@(.struct _ _ _) | h@(.list _ _ _) | h@(.unary .negate _ _ _) | h@(.binary _ _ _)
  | h@(.paren _ _ _) => exact ⟨rfl, h⟩

structure Written.Recast (w w' : Written) : Prop where
  expr : w.expr.Recast w'.expr
  file : w.file.ImportsAs w'.file

structure Declared.Recast (d d' : Declared) : Prop where
  label : d.label = d'.label
  kind : d.kind = d'.kind
  optional : d.optional = d'.optional
  conjuncts : List.Forall₂ Written.Recast d.conjuncts d'.conjuncts
  opened : d.opened = d'.opened

/-- What is said of a body, in different ways of writing it. -/
structure GathersAs (ms ms' : List Mention) : Prop where
  declared {ds ds' : List Declared} : List.Forall₂ Declared.Recast ds ds' →
    List.Forall₂ Declared.Recast (ms.foldl Mention.apply ds) (ms'.foldl Mention.apply ds')
  embeds : List.Forall₂ Written.Recast (ms.filterMap Mention.embed?) (ms'.filterMap Mention.embed?)

def SaysAs (ms ms' : List (Trail × Mention)) : Prop :=
  ∀ trail, GathersAs (mentionsAt trail ms) (mentionsAt trail ms')

namespace GathersAs

variable {ms ms' ns ns' : List Mention}

theorem nil : GathersAs [] [] := ⟨id, .nil⟩

theorem append (first : GathersAs ms ms') (last : GathersAs ns ns') : GathersAs (ms ++ ns) (ms' ++ ns') := by
  constructor
  · intro ds ds' h
    rw [List.foldl_append, List.foldl_append]
    exact last.declared (first.declared h)
  · rw [List.filterMap_append, List.filterMap_append]
    exact List.rel_append first.embeds last.embeds

end GathersAs

section Declared

variable {ds ds' : List Declared}

theorem Declared.isSome_find?_update {label name : String} {f : Declared → Declared} (keeps : ∀ d, (f d).label = d.label) :
    (find? (update ds name f) label).isSome = (find? ds label).isSome := by
  rw [find?_update keeps, Option.isSome_map]

theorem recast_find? (h : List.Forall₂ Declared.Recast ds ds') (label : String) :
    Option.Rel Declared.Recast (Declared.find? ds label) (Declared.find? ds' label) := by
  rw [Declared.find?, Declared.find?]
  induction h with
  | nil => exact .none
  | @cons d d' ds ds' first _ ih =>
    rw [List.find?_cons, List.find?_cons, first.label]
    cases d'.label == label with
    | true => exact .some first
    | false => exact ih

theorem recast_update (h : List.Forall₂ Declared.Recast ds ds') (label : String) {f f' : Declared → Declared}
    (changed : ∀ d d', d.Recast d' → (f d).Recast (f' d')) :
    List.Forall₂ Declared.Recast (Declared.update ds label f) (Declared.update ds' label f') := by
  rw [Declared.update, Declared.update, List.forall₂_map_left_iff, List.forall₂_map_right_iff]
  refine h.imp fun d d' first => ?_
  rw [first.label]
  split
  · exact changed d d' first
  · exact first

end Declared

section Mentions

variable {f f' : ParsedFile} (imports : f.ImportsAs f')

theorem gathersAs_label (name : String) (kind : Syntax.LabelKind) (span span' : Span) (optional : Bool) :
    GathersAs [.label ⟨name, kind, span⟩ optional f] [.label ⟨name, kind, span'⟩ optional f'] := by
  refine ⟨fun {ds ds'} h => ?_, .nil⟩
  have found := recast_find? h name
  rw [List.foldl_cons, List.foldl_nil, List.foldl_cons, List.foldl_nil, Mention.apply, Mention.apply]
  generalize Declared.find? ds name = d, Declared.find? ds' name = d' at found
  cases found with
  | some _ =>
    exact recast_update h name fun d d' first => { first with optional := congrArg (· && optional) first.optional }
  | none => exact List.rel_append h (.cons ⟨rfl, rfl, rfl, .nil, rfl⟩ .nil)

theorem gathersAs_literal (label : String) : GathersAs [.literal label] [.literal label] :=
  ⟨fun h => recast_update h label fun _ _ first => { first with opened := rfl }, .nil⟩

include imports

theorem gathersAs_conjunct (label : String) {e e' : Expr} (h : e.Recast e') :
    GathersAs [.conjunct label e f] [.conjunct label e' f'] :=
  ⟨fun declared => recast_update declared label fun _ _ first =>
    { first with conjuncts := List.rel_append first.conjuncts (.cons ⟨h, imports⟩ .nil) }, .nil⟩

theorem gathersAs_embed {e e' : Expr} (h : e.Recast e') : GathersAs [.embed e f] [.embed e' f'] :=
  ⟨id, .cons ⟨h, imports⟩ .nil⟩

end Mentions

namespace SaysAs

variable {ms ms' ns ns' : List (Trail × Mention)}

theorem nil : SaysAs [] [] := fun _ => .nil

theorem append (first : SaysAs ms ms') (last : SaysAs ns ns') : SaysAs (ms ++ ns) (ms' ++ ns') := by
  intro trail
  rw [mentionsAt_append, mentionsAt_append]
  exact (first trail).append (last trail)

theorem single {m m' : Mention} (here : Trail) (h : GathersAs [m] [m']) : SaysAs [(here, m)] [(here, m')] := by
  intro trail
  by_cases same : here = trail
  · subst same
    rw [mentionsAt_cons_self, mentionsAt_cons_self]
    exact h
  · rw [mentionsAt_cons_of_ne same, mentionsAt_cons_of_ne same]
    exact .nil

theorem cons {m m' : Mention} (here : Trail) (h : GathersAs [m] [m']) (rest : SaysAs ms ms') :
    SaysAs ((here, m) :: ms) ((here, m') :: ms') := (single here h).append rest

end SaysAs

/-- The same is gathered, from whatever there is before. -/
def SaysSame (ms ms' : List (Trail × Mention)) : Prop :=
  ∀ trail, (∀ ds, (mentionsAt trail ms).foldl Mention.apply ds = (mentionsAt trail ms').foldl Mention.apply ds) ∧
    (mentionsAt trail ms).filterMap Mention.embed? = (mentionsAt trail ms').filterMap Mention.embed?

theorem SaysSame.saysAs {ms ms' ms'' : List (Trail × Mention)} (same : SaysSame ms ms') (h : SaysAs ms' ms'') :
    SaysAs ms ms'' := by
  intro trail
  obtain ⟨declared, embeds⟩ := same trail
  constructor
  · intro ds ds' related
    rw [declared]
    exact (h trail).declared related
  · rw [embeds]
    exact (h trail).embeds

theorem SaysSame.symm {ms ms' : List (Trail × Mention)} (h : SaysSame ms ms') : SaysSame ms' ms :=
  fun trail => ⟨fun ds => ((h trail).1 ds).symm, (h trail).2.symm⟩

theorem SaysSame.trans {ms ms' ms'' : List (Trail × Mention)} (h : SaysSame ms ms') (h' : SaysSame ms' ms'') :
    SaysSame ms ms'' :=
  fun trail => ⟨fun ds => ((h trail).1 ds).trans ((h' trail).1 ds), (h trail).2.trans (h' trail).2⟩

theorem SaysSame.append_right {ms ms' : List (Trail × Mention)} (h : SaysSame ms ms') (ns : List (Trail × Mention)) :
    SaysSame (ms ++ ns) (ms' ++ ns) := by
  intro trail
  obtain ⟨declared, embeds⟩ := h trail
  simp only [mentionsAt_append, List.foldl_append, List.filterMap_append, declared, embeds, implies_true, and_self]

section Literals

variable {file : ParsedFile} {here : Trail} {name : String}

theorem hasLiteral_of_mem_valueMentions {label : String} {value : Expr}
    (h : (here, .literal name) ∈ valueMentions here label file value) : label = name ∧ value.hasLiteral = true := by
  match value with
  | .binary .unify left right =>
    rw [valueMentions, List.mem_append] at h
    rw [Expr.hasLiteral, Bool.or_eq_true]
    rcases h with h | h
    · exact (hasLiteral_of_mem_valueMentions h).imp_right .inl
    · exact (hasLiteral_of_mem_valueMentions h).imp_right .inr
  | .paren inner _ =>
    rw [valueMentions] at h
    rw [Expr.hasLiteral]
    exact hasLiteral_of_mem_valueMentions h
  | .struct decls _ =>
    rw [valueMentions, List.mem_cons] at h
    rcases h with same | inside
    · cases same
      exact ⟨rfl, rfl⟩
    · have suffix := ((suffix_mentions file).1 _ _ _ inside).length_le
      exact absurd suffix (Nat.not_succ_le_self _)
  | .null _ | .bool _ _ | .int _ _ | .float _ _ | .string _ _ | .ident _ | .select _ _ | .list _ _
  | .unary _ _ _ | .binary .disjoin _ _ =>
    rw [valueMentions] at h
    · cases List.mem_singleton.mp h
    all_goals simp

mutual

theorem openAny_of_mem_declsMentions {decls : List Decl} (h : (here, .literal name) ∈ declsMentions here file decls) :
    Decl.openAny name decls = true := by
  match decls with
  | [] =>
    rw [declsMentions] at h
    cases h
  | .field label _ _ _ value :: decls =>
    rw [declsMentions, declMentions, List.cons_append, List.mem_cons, List.mem_append] at h
    rw [Decl.openAny, Bool.or_eq_true, Bool.and_eq_true, beq_iff_eq]
    rcases h with impossible | own | later
    · cases impossible
    · exact .inl (hasLiteral_of_mem_valueMentions own)
    · exact .inr (openAny_of_mem_declsMentions later)
  | .embed value :: decls =>
    rw [declsMentions, declMentions, List.mem_append] at h
    rw [Decl.openAny, Bool.or_eq_true]
    exact h.imp opens_of_mem_embedMentions openAny_of_mem_declsMentions

theorem opens_of_mem_embedMentions {value : Expr} (h : (here, .literal name) ∈ embedMentions here file value) :
    value.opens name = true := by
  match value with
  | .binary .unify left right =>
    rw [embedMentions, List.mem_append] at h
    rw [Expr.opens, Bool.or_eq_true]
    exact h.imp opens_of_mem_embedMentions opens_of_mem_embedMentions
  | .paren inner _ =>
    rw [embedMentions] at h
    rw [Expr.opens]
    exact opens_of_mem_embedMentions h
  | .struct decls _ =>
    rw [embedMentions] at h
    rw [Expr.opens]
    exact openAny_of_mem_declsMentions h
  | .null _ | .bool _ _ | .int _ _ | .float _ _ | .string _ _ | .ident _ | .select _ _ | .list _ _
  | .unary _ _ _ | .binary .disjoin _ _ =>
    rw [embedMentions] at h
    · cases List.mem_singleton.mp h
    all_goals simp

end

/-- Without a literal for a label nothing is said inside the body of the label. -/
theorem not_inside_of_closed {decls : List Decl} (closed : Decl.openAny name decls = false) (inside : Trail)
    (m : Mention) : (inside ++ name :: here, m) ∉ declsMentions here file decls := by
  have unopened : (here, .literal name) ∉ declsMentions here file decls := by
    rw [← Bool.not_eq_true] at closed
    exact mt openAny_of_mem_declsMentions closed
  have grown := grown_declsMentions file here decls
  induction inside generalizing m with
  | nil => exact fun member => unopened ((grown.opened _ member).resolve_left (List.cons_ne_self _ _))
  | cons label inside ih =>
    intro member
    refine ih (.literal label) ((grown.opened _ member).resolve_left fun same => ?_)
    have length := congrArg List.length same
    simp only [List.cons_append, List.length_cons, List.length_append] at length
    omega

end Literals

section Said

/-- A field with a struct literal has been declared for a label, and says nothing new of it. -/
structure Said (name : String) (optional : Bool) (ds : List Declared) : Prop where
  present : (Declared.find? ds name).isSome = true
  opened : ∀ d ∈ ds, d.label = name → d.opened = true
  optional : ∀ d ∈ ds, d.label = name → (d.optional && optional) = d.optional

namespace Said

variable {name : String} {optional : Bool} {ds : List Declared}

theorem update (h : Said name optional ds) (label : String) {f : Declared → Declared}
    (keeps : ∀ d, (f d).label = d.label) (opened : ∀ d, d.opened = true → (f d).opened = true)
    (flag : ∀ d, (d.optional && optional) = d.optional → ((f d).optional && optional) = (f d).optional) :
    Said name optional (Declared.update ds label f) := by
  constructor
  · rw [Declared.isSome_find?_update keeps]
    exact h.present
  all_goals
    intro d member
    obtain ⟨d, old, rfl⟩ := List.mem_map.mp member
    split
  · exact fun same => opened d (h.opened d old ((keeps d).symm.trans same))
  · exact h.opened d old
  · exact fun same => flag d (h.optional d old ((keeps d).symm.trans same))
  · exact h.optional d old

theorem apply (h : Said name optional ds) (m : Mention) : Said name optional (m.apply ds) := by
  cases m with
  | label l optional' file =>
    rw [Mention.apply]
    split
    · refine h.update l.name (fun _ => rfl) (fun _ => id) fun d flag => ?_
      show (d.optional && optional' && optional) = _
      rw [Bool.and_right_comm, flag]
    · rename_i absent
      have other : l.name ≠ name := fun same => absent (same ▸ h.present)
      refine ⟨?_, ?_, ?_⟩
      · rw [Declared.find?, List.find?_append, ← Declared.find?, Option.isSome_or, h.present, Bool.true_or]
      all_goals
        refine List.forall_mem_append.mpr ⟨?_, List.forall_mem_singleton.mpr fun same => absurd same other⟩
      · exact h.opened
      · exact h.optional
  | conjunct label expr file => exact h.update label (fun _ => rfl) (fun _ => id) fun _ => id
  | literal label => exact h.update label (fun _ => rfl) (fun _ _ => rfl) fun _ => id
  | embed expr file => exact h

theorem foldl (h : Said name optional ds) (ms : List Mention) : Said name optional (ms.foldl Mention.apply ds) := by
  induction ms generalizing ds with
  | nil => exact h
  | cons m ms ih => exact ih (h.apply m)

theorem literal_eq (h : Said name optional ds) : Mention.apply ds (.literal name) = ds :=
  Declared.update_eq_self fun d member same => by rw [← h.opened d member same]

theorem label_eq (h : Said name optional ds) {l : Label} (same : l.name = name) (file : ParsedFile) :
    Mention.apply ds (.label l optional file) = ds := by
  rw [Mention.apply, same, if_pos h.present]
  exact Declared.update_eq_self fun d member same => by rw [h.optional d member same]

/-- A declaration of the label makes it as little optional as it is itself. -/
theorem optional_apply_label (l : Label) (optional : Bool) (file : ParsedFile) (ds : List Declared) :
    ∀ d ∈ Mention.apply ds (.label l optional file), d.label = l.name → (d.optional && optional) = d.optional := by
  rw [Mention.apply]
  split
  · intro d member same
    obtain ⟨d, _, rfl⟩ := List.mem_map.mp member
    split
    · rw [Bool.and_assoc, Bool.and_self]
    · rename_i other
      rw [if_neg other] at same
      exact absurd (beq_iff_eq.mpr same) other
  · rename_i absent
    rw [Option.not_isSome_iff_eq_none, Declared.find?_eq_none] at absent
    refine List.forall_mem_append.mpr ⟨fun d member same => ?_, List.forall_mem_singleton.mpr fun _ => ?_⟩
    · exact absurd (same ▸ List.mem_map_of_mem member) absent
    · exact Bool.and_self _

theorem present_apply_label (l : Label) (optional : Bool) (file : ParsedFile) (ds : List Declared) :
    (Declared.find? (Mention.apply ds (.label l optional file)) l.name).isSome = true := by
  rw [Mention.apply]
  split
  · rename_i found
    rwa [Declared.isSome_find?_update]
    exact fun _ => rfl
  · rw [Declared.find?, List.find?_append, Option.isSome_or, List.find?_singleton, beq_self_eq_true]
    exact Bool.or_true _

theorem intro (l : Label) (optional : Bool) (file : ParsedFile) (ds : List Declared) :
    Said l.name optional (Mention.apply (Mention.apply ds (.label l optional file)) (.literal l.name)) := by
  refine ⟨?_, fun d member same => ?_, fun d member same => ?_⟩
  · show (Declared.find? (Declared.update _ _ _) _).isSome = true
    rw [Declared.isSome_find?_update]
    · exact present_apply_label l optional file ds
    · exact fun _ => rfl
  all_goals
    obtain ⟨d, old, rfl⟩ := List.mem_map.mp member
    by_cases here : d.label = l.name
  · rw [if_pos (beq_iff_eq.mpr here)]
  · rw [if_neg (mt beq_iff_eq.mp here)] at same
    exact absurd same here
  · rw [if_pos (beq_iff_eq.mpr here)]
    exact optional_apply_label l optional file ds d old here
  · rw [if_neg (mt beq_iff_eq.mp here)] at same
    exact absurd same here

end Said

end Said

section Rules

variable {file : ParsedFile} {here : Trail} {label : Label} {optional : Bool}

/-- What a field with a struct literal says. -/
def fieldMentions (here : Trail) (file : ParsedFile) (label : Label) (optional : Bool)
    (inside : List (Trail × Mention)) : List (Trail × Mention) :=
  (here, .label label optional file) :: (here, .literal label.name) :: inside

/-- Another literal for the label may as well have stood behind the first one, without being announced. -/
theorem saysSame_field (file : ParsedFile) (optional : Bool) {again : List Mention} (known : ∀ ds, Said label.name optional ds → again.foldl Mention.apply ds = ds)
    (silent : again.filterMap Mention.embed? = []) {inside last : List (Trail × Mention)}
    (body : ∀ m ∈ inside ++ last, label.name :: here <:+ m.1) (between : List (Trail × Mention))
    (outside : ∀ m ∈ between, ¬ label.name :: here <:+ m.1) :
    SaysSame (fieldMentions here file label optional inside ++ between ++ (again.map ((here, ·)) ++ last))
      (fieldMentions here file label optional (inside ++ last) ++ between) := by
  intro trail
  by_cases within : label.name :: here <:+ trail
  · have apart : here ≠ trail := by
      rintro rfl
      exact Nat.not_succ_le_self _ within.length_le
    have none : mentionsAt trail between = [] :=
      mentionsAt_eq_nil fun m member same => outside m member (same ▸ within)
    have none' : mentionsAt trail (again.map ((here, ·))) = [] :=
      mentionsAt_eq_nil <| List.forall_mem_map.mpr fun _ _ => apart
    simp only [fieldMentions, List.cons_append, mentionsAt_append, mentionsAt_cons_of_ne apart, none, none',
      List.append_nil, List.nil_append, implies_true, and_self]
  · have none {ms : List (Trail × Mention)} (sub : ms ⊆ inside ++ last) : mentionsAt trail ms = [] :=
      mentionsAt_eq_nil fun m member same => within (same ▸ body m (sub member))
    have noInside := none (List.subset_append_left inside last)
    have noLast := none (List.subset_append_right inside last)
    by_cases own : here = trail
    · subst own
      have all : mentionsAt here (again.map ((here, ·))) = again := by
        simp [mentionsAt, List.filter_map, Function.comp_def]
      simp only [fieldMentions, List.cons_append, mentionsAt_append, mentionsAt_cons_self, noInside, noLast, all,
        List.nil_append, List.append_nil, List.foldl_cons, List.foldl_append, List.filterMap_append,
        List.filterMap_cons, silent, and_true]
      exact fun ds => known _ ((Said.intro label optional file ds).foldl _)
    · have none' : mentionsAt trail (again.map ((here, ·))) = [] :=
        mentionsAt_eq_nil <| List.forall_mem_map.mpr fun _ _ => own
      simp only [fieldMentions, List.cons_append, mentionsAt_append, mentionsAt_cons_of_ne own, noInside, noLast, none',
        List.nil_append, List.append_nil, implies_true, and_self]

theorem saysSame_literal (file : ParsedFile) (optional : Bool) {inside last : List (Trail × Mention)}
    (body : ∀ m ∈ inside ++ last, label.name :: here <:+ m.1) :
    SaysSame (fieldMentions here file label optional inside ++ (here, .literal label.name) :: last)
      (fieldMentions here file label optional (inside ++ last)) := by
  have known : ∀ ds, Said label.name optional ds → [Mention.literal label.name].foldl Mention.apply ds = ds :=
    fun _ said => said.literal_eq
  simpa using saysSame_field file optional known rfl body [] (List.forall_mem_nil _)

variable {first last between : List Decl} {doc doc' : List Syntax.Comment} {span span' span₁ span₂ : Span}

theorem saysSame_merged (all : Span) (decls : List Decl) :
    SaysSame
      (declsMentions here file
        (.field label optional doc span (.binary .unify (.struct first span₁) (.struct last span₂)) :: decls))
      (declsMentions here file (.field label optional doc span (.struct (first ++ last) all) :: decls)) := by
  have inside (decls : List Decl) := (suffix_mentions file).1 (label.name :: here) decls
  have field := saysSame_literal file optional (List.forall_mem_append.mpr ⟨inside first, inside last⟩)
  simpa [declsMentions, declMentions, valueMentions, fieldMentions, declsMentions_append]
    using field.append_right (declsMentions here file decls)

theorem saysSame_joined {label' : Label} (again : label'.name = label.name)
    (closed : Decl.openAny label.name between = false) (decls : List Decl) :
    SaysSame
      (declsMentions here file (.field label optional doc span (.struct first span₁) ::
        (between ++ .field label' optional doc' span' (.struct last span₂) :: decls)))
      (declsMentions here file
        (.field label optional doc span (.binary .unify (.struct first span₁) (.struct last span₂)) ::
          (between ++ decls))) := by
  have inside (decls : List Decl) := (suffix_mentions file).1 (label.name :: here) decls
  have both := List.forall_mem_append.mpr ⟨inside first, inside last⟩
  have outside : ∀ m ∈ declsMentions here file between, ¬ label.name :: here <:+ m.1 := by
    rintro ⟨_, m⟩ member ⟨within, rfl⟩
    exact not_inside_of_closed closed within m member
  have known : ∀ ds, Said label.name optional ds →
      [Mention.label label' optional file, .literal label.name].foldl Mention.apply ds = ds := fun ds said => by
    rw [List.foldl_cons, said.label_eq again, List.foldl_cons, said.literal_eq, List.foldl_nil]
  have apart := saysSame_field file optional known rfl both _ outside
  have together := saysSame_literal file optional both
  have moved := (apart.trans (together.symm.append_right (declsMentions here file between))).append_right
    (declsMentions here file decls)
  simpa [declsMentions, declMentions, valueMentions, fieldMentions, declsMentions_append, again] using moved

end Rules

section Recast

variable {f f' : ParsedFile}

mutual

/-- Bodies that are written in different ways say the same. -/
theorem saysAs_declsMentions (imports : f.ImportsAs f') {decls decls' : List Decl} (h : Decl.RecastAll decls decls')
    (here : Trail) :
    SaysAs (declsMentions here f decls) (declsMentions here f' decls') := by
  match h with
  | .nil =>
    rw [declsMentions, declsMentions]
    exact .nil
  | .field name kind optional at_ at_' _ _ _ _ first rest =>
    rw [declsMentions, declsMentions, declMentions, declMentions]
    exact ((saysAs_valueMentions imports first here name).cons here (gathersAs_label name kind at_ at_' optional)).append
      (saysAs_declsMentions imports rest here)
  | .embed first rest =>
    rw [declsMentions, declsMentions, declMentions, declMentions]
    exact (saysAs_embedMentions imports first here).append (saysAs_declsMentions imports rest here)
  | .spliced _ rest =>
    rw [declsMentions, declMentions, embedMentions, ← declsMentions_append]
    exact saysAs_declsMentions imports rest here
  | .merged all rest => exact (saysSame_merged all _).saysAs (saysAs_declsMentions imports rest here)
  | .joined _ again closed rest => exact (saysSame_joined again closed _).saysAs (saysAs_declsMentions imports rest here)

theorem saysAs_valueMentions (imports : f.ImportsAs f') {e e' : Expr} (h : e.Recast e') (here : Trail)
    (label : String) :
    SaysAs (valueMentions here label f e) (valueMentions here label f' e') := by
  match h with
  | .binary .unify first last =>
    rw [valueMentions, valueMentions]
    exact (saysAs_valueMentions imports first here label).append (saysAs_valueMentions imports last here label)
  | .paren _ _ inner =>
    rw [valueMentions, valueMentions]
    exact saysAs_valueMentions imports inner here label
  | .struct _ _ body =>
    rw [valueMentions, valueMentions]
    exact (saysAs_declsMentions imports body (label :: here)).cons here (gathersAs_literal label)
  | h@(.null _ _) | h@(.bool _ _ _) | h@(.int _ _ _) | h@(.float _ _ _) | h@(.string _ _ _) | h@(.ident _ _ _)
  | h@(.select _ _ _ _) | h@(.list _ _ _) | h@(.unary _ _ _ _) | h@(.binary .disjoin _ _) =>
    rw [valueMentions, valueMentions]
    · exact .single here (gathersAs_conjunct imports label h)
    all_goals simp

theorem saysAs_embedMentions (imports : f.ImportsAs f') {e e' : Expr} (h : e.Recast e') (here : Trail) :
    SaysAs (embedMentions here f e) (embedMentions here f' e') := by
  match h with
  | .binary .unify first last =>
    rw [embedMentions, embedMentions]
    exact (saysAs_embedMentions imports first here).append (saysAs_embedMentions imports last here)
  | .paren _ _ inner =>
    rw [embedMentions, embedMentions]
    exact saysAs_embedMentions imports inner here
  | .struct _ _ body =>
    rw [embedMentions, embedMentions]
    exact saysAs_declsMentions imports body here
  | h@(.null _ _) | h@(.bool _ _ _) | h@(.int _ _ _) | h@(.float _ _ _) | h@(.string _ _ _) | h@(.ident _ _ _)
  | h@(.select _ _ _ _) | h@(.list _ _ _) | h@(.unary _ _ _ _) | h@(.binary .disjoin _ _) =>
    rw [embedMentions, embedMentions]
    · exact .single here (gathersAs_embed imports h)
    all_goals simp

end

end Recast

end Evaluation

end StackLattice
