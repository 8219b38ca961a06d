import StackLattice.Proofs.Syntax.Descent

/-!
With turns enough, reading by positions comes to what reading from a cursor comes to. On the way it never goes back and
never leaves the tokens; what it has called has gone on and given its levels back, and where it has failed it has done
nothing more.
-/

namespace StackLattice.Syntax.Descent

open Program

section Events

variable (tokens : List Token)

def cursor (position : Nat) : Cursor := { Cursor.ofTokens tokens with rest := tokens.dropLast.drop position }

/-- Farther on or not, but not behind an end of the text, and with no level given back that was in use. -/
structure Passed (a b : Place) : Prop where
  position : a.position ≤ b.position
  text : ∀ n, a.position ≤ n → n < b.position → (cursor tokens n).current.kind ≠ .eof
  depth : a.depth ≤ b.depth

/-- Farther on, with as many levels in use. -/
def Place.Advances (a b : Place) : Prop := a.position < b.position ∧ b.depth = a.depth

/-- What may be noted where nothing has failed: a call has gone on, not behind an end of the text, and has given back
    its levels; every turn of a loop has the levels that the loop was entered with. -/
def Event.Fair : Event → Prop
  | started _ _ => True
  | finished _ start stop => Passed tokens start stop ∧ start.Advances stop
  | failed _ _ _ _ => False
  | turned entry here => here.depth = entry.depth

/-- A failure that is handed on by a call, at the position where it arose. -/
def Event.HandsOn (fault : Located) (position : Nat) : Event → Prop
  | failed _ _ stop e => e = fault ∧ stop.position = position
  | _ => False

/-- What reading from a state comes to, beside what reading from a cursor comes to. -/
inductive Beside {α : Type} (s : State) (post : Place → Prop) :
    Except Located (α × Cursor) → Option (Except Located α × State) → Prop
  | ok {a : α} {place : Place} {events : List Event} : Passed tokens s.place place → post place →
    (∀ event ∈ events, event.Fair tokens) →
    Beside s post (.ok (a, cursor tokens place.position)) (some (.ok a, ⟨place, s.trace ++ events⟩))
  | error {fault : Located} {place : Place} {before after : List Event} : Passed tokens s.place place →
    (∀ event ∈ before, event.Fair tokens) → (∀ event ∈ after, event.HandsOn fault place.position) →
    Beside s post (.error fault) (some (.error fault, ⟨place, s.trace ++ (before ++ after)⟩))

/-- What reading from a state comes to with turns enough. -/
def Comes {α : Type} (p : Nat → Action α) (s : State) (r : Option (Except Located α × State)) : Prop :=
  ∃ n, ∀ m ≥ n, p m s = r

/-- Reading from a state comes to what reading from the cursor there does. -/
def Follows {α : Type} (p : Nat → Action α) (q : Parse α) (post : Place → Prop) (s : State) : Prop :=
  ∃ r, Beside tokens s post (q (cursor tokens s.place.position)) r ∧ Comes p s r

end Events

variable {tokens : List Token} {α β : Type} {s : State} {P Q : Place → Prop}

theorem Passed.refl (a : Place) : Passed tokens a a :=
  ⟨Nat.le_refl _, fun _ behind before => absurd (Nat.lt_of_le_of_lt behind before) (Nat.lt_irrefl _), Nat.le_refl _⟩

theorem Passed.trans {a b c : Place} (h : Passed tokens a b) (h' : Passed tokens b c) : Passed tokens a c := by
  refine ⟨Nat.le_trans h.position h'.position, fun n behind before => ?_, Nat.le_trans h.depth h'.depth⟩
  rcases Nat.lt_or_ge n b.position with first | second
  · exact h.text n behind first
  · exact h'.text n second before

section Beside

variable {m : Except Located (α × Cursor)} {r : Option (Except Located α × State)}

theorem Beside.mono (h : Beside tokens s P m r) (weaker : ∀ place, Passed tokens s.place place → P place → Q place) :
    Beside tokens s Q m r := by
  cases h with
  | ok passed post fair => exact .ok passed (weaker _ passed post) fair
  | error passed fair handed => exact .error passed fair handed

theorem Beside.refused {fault : Located} :
    Beside tokens s P (.error fault : Except Located (α × Cursor)) (some (.error fault, s)) := by
  have none : Beside tokens s P (.error fault : Except Located (α × Cursor))
      (some (.error fault, ⟨s.place, s.trace ++ ([] ++ [])⟩)) :=
    .error (.refl _) (List.forall_mem_nil _) (List.forall_mem_nil _)
  rw [List.append_nil, List.append_nil] at none
  exact none

/-- What has been noted is fair, and behind it a failure has been handed on or nothing. -/
theorem Beside.noted (h : Beside tokens s P m r) : ∃ outcome final before after, r = some (outcome, final) ∧
    outcome = m.map Prod.fst ∧ final.trace = s.trace ++ (before ++ after) ∧ (∀ event ∈ before, event.Fair tokens) ∧
    ∀ event ∈ after, ∃ fault, outcome = .error fault ∧ event.HandsOn fault final.place.position := by
  cases h with
  | @ok a place events passed post fair =>
    exact ⟨_, _, events, [], rfl, rfl, by rw [List.append_nil], fair, List.forall_mem_nil _⟩
  | @error fault place before after passed fair handed =>
    exact ⟨_, _, before, after, rfl, rfl, rfl, fair, fun event noted => ⟨fault, rfl, handed event noted⟩⟩

/-- Behind events that are fair, what comes about beside each other goes on doing so. -/
theorem Beside.behind {place : Place} {events : List Event} (h : Beside tokens ⟨place, s.trace ++ events⟩ P m r)
    (passed : Passed tokens s.place place) (fair : ∀ event ∈ events, event.Fair tokens) : Beside tokens s P m r := by
  cases h with
  | ok further post more =>
    rw [List.append_assoc]
    exact .ok (passed.trans further) post (List.forall_mem_append.mpr ⟨fair, more⟩)
  | error further more handed =>
    rw [List.append_assoc, ← List.append_assoc events]
    exact .error (passed.trans further) (List.forall_mem_append.mpr ⟨fair, more⟩) handed

theorem Beside.moved {place : Place} (h : Beside tokens ⟨place, s.trace⟩ P m r) (passed : Passed tokens s.place place) :
    Beside tokens s P m r := by
  rw [← List.append_nil s.trace] at h
  exact h.behind passed (List.forall_mem_nil _)

end Beside

namespace Follows

variable {p : Nat → Action α} {q : Parse α} {k : Nat → α → Action β} {l : α → Parse β}

/-- A reading whose calls have a turn less comes to the same. -/
theorem succ (h : Follows tokens (fun n => p (n + 1)) q P s) : Follows tokens p q P s := by
  obtain ⟨r, beside, n, run⟩ := h
  refine ⟨r, beside, n + 1, fun m more => ?_⟩
  obtain ⟨m, rfl⟩ := Nat.exists_eq_add_one.mpr (Nat.zero_lt_of_lt more)
  exact run m (Nat.le_of_succ_le_succ more)

theorem of_beside {p : Action α} (h : Beside tokens s P (q (cursor tokens s.place.position)) (p s)) :
    Follows tokens (fun _ => p) q P s := ⟨_, h, 0, fun _ _ => rfl⟩

/-- A reading that is wrapped in another one, of which nothing matters but what it comes to from some state. -/
theorem wrapped {w : Action α → Action β} {q' : Parse β} {t : State} (inner : Follows tokens p q P t)
    (only : ∀ p p', p t = p' t → w p s = w p' s)
    (step : ∀ p : Action α, Beside tokens t P (q (cursor tokens t.place.position)) (p t) →
      Beside tokens s Q (q' (cursor tokens s.place.position)) (w p s)) :
    Follows tokens (fun n => w (p n)) q' Q s := by
  obtain ⟨r, beside, n, run⟩ := inner
  have run_n := run n (Nat.le_refl _)
  refine ⟨w (p n) s, step (p n) (run_n ▸ beside), n, fun m more => only _ _ ?_⟩
  rw [run m more, run_n]

/-- A step that goes to another state. -/
theorem stepped {p : Action α} {a : α} {t : State} {q q' : Parse β} (run : p s = some (.ok a, t))
    (read : q (cursor tokens s.place.position) = q' (cursor tokens t.place.position))
    (step : ∀ {m : Except Located (β × Cursor)} {r}, Beside tokens t Q m r → Beside tokens s Q m r)
    (next : Follows tokens (k · a) q' Q t) : Follows tokens (fun n => p >>= k n) q Q s := by
  obtain ⟨r, beside, n, rest⟩ := next
  rw [← read] at beside
  exact ⟨r, step beside, n, fun m more => (bind_of_ok run).trans (rest m more)⟩

theorem pure {a : α} (post : P s.place) : Follows tokens (fun _ => pure a) (pure a) P s := by
  have none : Beside tokens s P (.ok (a, cursor tokens s.place.position))
      (some (.ok a, ⟨s.place, s.trace ++ []⟩)) := .ok (.refl _) post (List.forall_mem_nil _)
  rw [List.append_nil] at none
  exact .of_beside none

theorem bind (first : Follows tokens p q P s)
    (next : ∀ a t, Passed tokens s.place t.place → P t.place → Follows tokens (k · a) (l a) Q t) :
    Follows tokens (fun n => p n >>= k n) (q >>= l) Q s := by
  obtain ⟨r, first, n, run⟩ := first
  unfold Follows
  generalize read : q (cursor tokens s.place.position) = m at first
  cases first with
  | ok passed post fair =>
    obtain ⟨r, second, n', run'⟩ := next _ ⟨_, _⟩ passed post
    rw [Parse.bind_of_ok read]
    -- turns enough for both are enough
    refine ⟨r, second.behind passed fair, max n n', fun m more => ?_⟩
    obtain ⟨enough, enough'⟩ := Nat.max_le.mp more
    exact (bind_of_ok (run m enough)).trans (run' m enough')
  | error passed fair handed =>
    rw [Parse.bind_of_error read]
    exact ⟨_, .error passed fair handed, n, fun m more => bind_of_error (run m more)⟩

theorem mono (h : Follows tokens p q P s) (weaker : ∀ place, Passed tokens s.place place → P place → Q place) :
    Follows tokens p q Q s := by
  obtain ⟨r, beside, run⟩ := h
  exact ⟨r, beside.mono weaker, run⟩

theorem ite {p' : Nat → Action α} {q' : Parse α} {c : Prop} [Decidable c] (pos : c → Follows tokens p q P s)
    (neg : ¬c → Follows tokens p' q' P s) :
    Follows tokens (fun n => if c then p n else p' n) (if c then q else q') P s := by
  split
  · exact pos ‹c›
  · exact neg ‹¬c›

theorem get_bind {k : Nat → State → Action β} {l : Parse β} (next : Follows tokens (k · s) l P s) :
    Follows tokens (fun n => get >>= k n) l P s := next

theorem cursor_bind {k : Nat → Action β} {l : Cursor → Parse β}
    (next : Follows tokens k (l (cursor tokens s.place.position)) P s) : Follows tokens k (get >>= l) P s := next

theorem turned_bind {entry : Place} {k : Nat → Action β} {l : Parse β} (same : s.place.depth = entry.depth)
    (next : Follows tokens k l P ⟨s.place, s.trace ++ [.turned entry s.place]⟩) :
    Follows tokens (fun n => do note (.turned entry (← get).place); k n) l P s := by
  obtain ⟨r, beside, run⟩ := next
  exact ⟨r, beside.behind (.refl _) (List.forall_mem_singleton.mpr same), run⟩

end Follows

/-- The list of tokens ends with the end of the text. -/
def Ended (tokens : List Token) : Prop := tokens.getLast?.map (·.kind) = some .eof

instance : Decidable (Ended tokens) := inferInstanceAs (Decidable (_ = _))

section Cursor

theorem advance_cursor (n : Nat) : (cursor tokens n).advance = cursor tokens (n + 1) := by
  simp only [cursor, Cursor.advance, List.tail_drop]

theorem following_cursor (n : Nat) : (cursor tokens n).following = (cursor tokens (n + 1)).current := by
  rw [← advance_cursor]
  rfl

theorem length_rest (n : Nat) : (cursor tokens n).rest.length = tokens.length - 1 - n := by
  simp only [cursor, List.length_drop, List.length_dropLast]

theorem Ended.split (ends : Ended tokens) : ∃ body finish, tokens = body ++ [finish] ∧ finish.kind = .eof := by
  obtain ⟨finish, last, eof⟩ := Option.map_eq_some_iff.mp ends
  obtain ⟨body, rfl⟩ := List.getLast?_eq_some_iff.mp last
  exact ⟨body, finish, rfl, eof⟩

theorem Ended.finish (ends : Ended tokens) (n : Nat) : (cursor tokens n).finish.kind = .eof := by
  obtain ⟨body, finish, rfl, eof⟩ := ends.split
  simpa [cursor, Cursor.ofTokens] using eof

theorem Ended.getElem? (ends : Ended tokens) (n : Nat) :
    tokens[min n (tokens.length - 1)]? = some (cursor tokens n).current := by
  obtain ⟨body, finish, rfl, -⟩ := ends.split
  have found : (body ++ [finish])[min n body.length]? = some ((body.drop n).head?.getD finish) := by
    rw [List.head?_drop]
    rcases Nat.lt_or_ge n body.length with within | behind
    · rw [Nat.min_eq_left (Nat.le_of_lt within), List.getElem?_append_left within, List.getElem?_eq_getElem within]
      rfl
    · rw [Nat.min_eq_right behind, List.getElem?_concat_length, List.getElem?_eq_none behind]
      rfl
  simp only [List.length_append, List.length_singleton, Nat.add_sub_cancel, found, cursor, Cursor.ofTokens,
    Cursor.current, List.dropLast_concat, List.getLast?_concat, Option.getD_some]

theorem Ended.tokenAt (ends : Ended tokens) (n : Nat) (s : State) :
    tokenAt tokens n s = some (.ok (cursor tokens n).current, s) := by
  rw [Descent.tokenAt, ends.getElem?]
  rfl

/-- A token that is not the end of the text is not the last. -/
theorem Ended.lt_of_more (ends : Ended tokens) {n : Nat} (more : (cursor tokens n).current.kind ≠ .eof) :
    n < tokens.length - 1 := by
  have eof := ends.finish n
  have rest : (cursor tokens n).rest.length = _ := length_rest n
  unfold Cursor.current at more
  generalize cursor tokens n = c at *
  cases list : c.rest with
  | nil =>
    rw [list] at more
    exact absurd eof more
  | cons t ts =>
    rw [list, List.length_cons] at rest
    omega

/-- What has gone on has not gone behind the last token. -/
theorem Passed.within {a b : Place} (h : Passed tokens a b) (ends : Ended tokens) (further : a.position < b.position) :
    b.position < tokens.length := by
  have last := ends.lt_of_more (h.text (b.position - 1) (by omega) (by omega))
  omega

end Cursor

/-- The token at the place of a state. -/
abbrev head (tokens : List Token) (s : State) : Token := (cursor tokens s.place.position).current

theorem head_ne_eof {kind : TokenKind} (is : (head tokens s).kind = kind) (other : kind ≠ .eof) :
    (head tokens s).kind ≠ .eof := is ▸ other

namespace State

/-- A token farther on. -/
def ahead (s : State) : State := { s with place := { s.place with position := s.place.position + 1 } }

/-- With one more level in use. -/
def deeper (s : State) : State := { s with place := { s.place with depth := s.place.depth + 1 } }

end State

section Steps

variable {k : Nat → Unit → Action β} {l : Unit → Parse β} (ends : Ended tokens)
include ends

theorem current_eq (s : State) : current tokens s = some (.ok (head tokens s), s) := ends.tokenAt _ s

theorem Follows.current_bind {k : Nat → Token → Action β} {l : Token → Parse β}
    (next : Follows tokens (k · (head tokens s)) (l (head tokens s)) P s) :
    Follows tokens (fun n => current tokens >>= k n) (Parse.current >>= l) P s :=
  .stepped (current_eq ends s) (Parse.current_bind l) id next

theorem Follows.check_bind {kind : TokenKind} {k : Nat → Bool → Action β} {l : Bool → Parse β}
    (next : Follows tokens (k · ((head tokens s).kind == kind)) (l ((head tokens s).kind == kind)) P s) :
    Follows tokens (fun n => check tokens kind >>= k n) (Parse.check kind >>= l) P s := by
  have run : check tokens kind s = some (.ok ((head tokens s).kind == kind), s) := by
    rw [check, bind_of_ok (current_eq ends s)]
    rfl
  exact .stepped run (Parse.check_bind kind l) id next

theorem fail_eq (fault : Fault) (s : State) :
    (fail tokens fault : Action α) s = some (.error ⟨fault, (head tokens s).span⟩, s) := by
  rw [fail, bind_of_ok (current_eq ends s)]
  rfl

theorem Follows.fail (fault : Fault) :
    Follows tokens (fun _ => (fail tokens fault : Action α)) (Parse.fail fault) P s := by
  refine .of_beside ?_
  rw [fail_eq ends]
  exact .refused

theorem Follows.unexpected (wanted : Expected) :
    Follows tokens (fun _ => (unexpected tokens wanted : Action α)) (Parse.unexpected wanted) P s :=
  .current_bind ends (.fail ends _)

theorem advance_eq (more : (head tokens s).kind ≠ .eof) : advance tokens s = some (.ok (), s.ahead) := by
  rw [advance, bind_of_ok (current_eq ends s), if_neg more]
  rfl

omit ends in
theorem passed_ahead (more : (head tokens s).kind ≠ .eof) : Passed tokens s.place s.ahead.place := by
  refine ⟨Nat.le_succ _, fun n behind before => ?_, Nat.le_refl _⟩
  rw [Nat.le_antisymm (Nat.le_of_lt_succ before) behind]
  exact more

omit ends in
theorem Beside.of_ahead {m : Except Located (α × Cursor)} {r : Option (Except Located α × State)}
    (more : (head tokens s).kind ≠ .eof) (h : Beside tokens s.ahead P m r) : Beside tokens s P m r :=
  Beside.moved h (passed_ahead more)

omit ends in
theorem advance_bind_cursor (l : Unit → Parse β) (s : State) :
    (Parse.advance >>= l) (cursor tokens s.place.position) = l () (cursor tokens s.ahead.place.position) := by
  rw [Parse.advance_bind, advance_cursor]
  rfl

theorem Follows.advance_bind (more : (head tokens s).kind ≠ .eof)
    (next : Follows tokens (k · ()) (l ()) P s.ahead) :
    Follows tokens (fun n => advance tokens >>= k n) (Parse.advance >>= l) P s :=
  .stepped (advance_eq ends more) (advance_bind_cursor l s) (.of_ahead more) next

/-- The token that is asked for stands here. -/
theorem Follows.expect_bind {kind : TokenKind} {k : Nat → Span → Action β} (here : (head tokens s).kind = kind)
    (more : kind ≠ .eof) (next : Follows tokens (k · (head tokens s).span) (l ()) P s.ahead) :
    Follows tokens (fun n => expect tokens kind >>= k n) (Parse.advance >>= l) P s := by
  have more := head_ne_eof here more
  have run : expect tokens kind s = some (.ok (head tokens s).span, s.ahead) := by
    rw [expect, bind_of_ok (current_eq ends s), if_pos here, bind_of_ok (advance_eq ends more)]
    rfl
  exact .stepped run (advance_bind_cursor l s) (.of_ahead more) next

omit ends in
/-- Commas are passed over one at a time. -/
theorem skipCommas_eq {c : Cursor} (eof : c.finish.kind = .eof) :
    Parse.skipCommas c = (do
      if (← Parse.current).kind.isComma then
        Parse.advance
        Parse.skipCommas
      else return : Parse Unit) c := by
  rw [Parse.current_bind]
  obtain ⟨_ | ⟨t, ts⟩, finish⟩ := c
  · have other : ¬(Cursor.current ⟨[], finish⟩).kind.isComma = true := by
      rw [show (Cursor.current ⟨[], finish⟩).kind = .eof from eof]
      exact Bool.false_ne_true
    rw [if_neg other]
    rfl
  · have passed : Parse.skipCommas ⟨t :: ts, finish⟩ = .ok ((), ⟨(t :: ts).dropWhile (·.kind.isComma), finish⟩) := rfl
    rw [passed]
    split
    · rw [List.dropWhile_cons_of_pos ‹_›]
      rfl
    · rw [List.dropWhile_cons_of_neg ‹_›]
      rfl

theorem skipCommas_follows : Follows tokens (skipCommas tokens) Parse.skipCommas (·.depth = s.place.depth) s := by
  -- the tokens that are left become fewer with each comma
  induction left : tokens.length - 1 - s.place.position using Nat.strongRecOn generalizing s with
  | ind left ih =>
    refine .succ ?_
    unfold Follows
    rw [skipCommas_eq (ends.finish _)]
    refine Follows.current_bind ends (.ite (fun comma => ?_) fun _ => .pure rfl)
    have more : (head tokens s).kind ≠ .eof := by
      intro eof
      rw [eof] at comma
      cases comma
    have within := ends.lt_of_more more
    exact .advance_bind ends more (ih _ (by show _ - (_ + 1) < _; omega) rfl)

theorem expect_follows {kind : TokenKind} (more : kind ≠ .eof) :
    Follows tokens (fun _ => expect tokens kind) (Parse.expect kind) s.place.Advances s := by
  refine .current_bind ends (.ite (fun is => ?_) fun _ => .unexpected ends _)
  exact .advance_bind ends (head_ne_eof is more) (.pure ⟨Nat.lt_succ_self _, rfl⟩)

theorem separator_follows : Follows tokens (separator tokens) Parse.separator (·.depth = s.place.depth) s :=
  .current_bind ends (.ite (fun _ => skipCommas_follows ends) fun _ =>
    .ite (fun _ => .pure rfl) fun _ => .unexpected ends _)

theorem separatorOr_follows {close : TokenKind} :
    Follows tokens (separatorOr tokens close) (Parse.separatorOr close) (·.depth = s.place.depth) s :=
  .current_bind ends (.ite (fun _ => skipCommas_follows ends) fun _ =>
    .ite (fun _ => .pure rfl) fun _ => .unexpected ends _)

theorem atFieldStart_eq (s : State) :
    atFieldStart tokens s = some (.ok (Syntax.atFieldStart (cursor tokens s.place.position)), s) := by
  have second : following tokens s = some (.ok (cursor tokens s.place.position).following, s) := by
    rw [following_cursor]
    exact ends.tokenAt _ s
  rw [Descent.atFieldStart, bind_of_ok (current_eq ends s), bind_of_ok second]
  rfl

theorem Follows.atFieldStart_ite {p p' : Nat → Action α} {q q' : Parse α} (pos : Follows tokens p q P s)
    (neg : Follows tokens p' q' P s) :
    Follows tokens (fun n => do if ← atFieldStart tokens then p n else p' n)
      (do if Syntax.atFieldStart (← get) then q else q') P s :=
  .stepped (atFieldStart_eq ends s) rfl id (.ite (fun _ => pos) fun _ => neg)

end Steps

section Levels

variable {revision : Revision} {n : Nat}

/-- How many levels are left. -/
def State.Spare (s : State) (n : Nat) : Prop := nestingLimit - s.place.depth = n

theorem State.Spare.of_depth {s t : State} (h : s.Spare n) (same : t.place.depth = s.place.depth) : t.Spare n := by
  rw [Spare, same]
  exact h

variable (ends : Ended tokens)
include ends

theorem descend_eq_error (none : s.Spare 0) :
    descend tokens s = some (.error ⟨.tooDeep, (head tokens s).span⟩, s) := by
  rw [descend, get_bind, if_pos (Nat.le_of_sub_eq_zero none), fail_eq ends]

omit ends in
theorem descend_eq_ok (tokens : List Token) (some : s.Spare (n + 1)) :
    descend tokens s = .some (.ok (), s.deeper) ∧ s.deeper.Spare n := by
  unfold State.Spare at *
  constructor
  · rw [descend, get_bind, if_neg (by omega)]
    rfl
  · show nestingLimit - (s.place.depth + 1) = n
    omega

theorem Follows.descend_bind {k : Nat → Unit → Action β} {l : Level → Parse β} (spare : s.Spare n)
    (next : ∀ m, n = m + 1 → s.deeper.Spare m → Follows tokens (k · ()) (l (.ofHeight revision m)) P s.deeper) :
    Follows tokens (fun n => descend tokens >>= k n) (Rule.descend (Level.below revision n) l) P s := by
  cases n with
  | zero => exact ⟨_, .refused, 0, fun m _ => bind_of_error (descend_eq_error ends spare)⟩
  | succ m =>
    obtain ⟨run, spare⟩ := descend_eq_ok tokens spare
    have passed : Passed tokens s.place s.deeper.place := { Passed.refl s.place with depth := Nat.le_succ _ }
    exact .stepped run rfl (Beside.moved · passed) (next m rfl spare)

omit ends in
/-- What has gone on a level deeper has gone on as well where that level is given back behind it, and where it has
    failed if it is given back or not. -/
theorem Beside.of_deeper {m : Except Located (α × Cursor)} {r r' : Option (Except Located α × State)}
    (h : Beside tokens s.deeper s.deeper.place.Advances m r)
    (ok : ∀ a position trace, r = some (.ok a, ⟨⟨position, s.place.depth + 1⟩, trace⟩) →
      r' = some (.ok a, ⟨⟨position, s.place.depth⟩, trace⟩))
    (error : ∀ fault position depth trace, r = some (.error fault, ⟨⟨position, depth + 1⟩, trace⟩) →
      ∃ left ≥ depth, r' = some (.error fault, ⟨⟨position, left⟩, trace⟩)) :
    Beside tokens s s.place.Advances m r' := by
  cases h with
  | @ok a place events passed moved fair =>
    obtain ⟨position, depth⟩ := place
    obtain ⟨further, rfl⟩ := moved
    have whole : Passed tokens s.place ⟨position, s.place.depth⟩ := { passed with depth := Nat.le_refl _ }
    rw [ok _ _ _ rfl]
    exact .ok whole ⟨further, rfl⟩ fair
  | @error fault place before after passed fair handed =>
    obtain ⟨position, depth⟩ := place
    have more : s.place.depth + 1 ≤ depth := passed.depth
    obtain ⟨depth, rfl⟩ : ∃ d, depth = d + 1 := Nat.exists_eq_add_one.mpr (Nat.lt_of_lt_of_le (Nat.succ_pos _) more)
    obtain ⟨left, enough, rfl⟩ := error _ _ _ _ rfl
    have whole : Passed tokens s.place ⟨position, left⟩ :=
      { passed with depth := Nat.le_trans (Nat.le_of_succ_le_succ more) enough }
    exact .error whole fair handed

section Deeper

variable {p : Nat → Action α} {l : Level → Parse α} (spare : s.Spare n)
  (inner : ∀ m, n = m + 1 → s.deeper.Spare m →
    Follows tokens p (l (.ofHeight revision m)) s.deeper.place.Advances s.deeper)
include spare inner

theorem nested_follows : Follows tokens (fun n => nested tokens (p n)) (Rule.descend (Level.below revision n) l)
    s.place.Advances s := by
  cases n with
  | zero => exact ⟨_, .refused, 0, fun m _ => bind_of_error (descend_eq_error ends spare)⟩
  | succ m =>
    obtain ⟨down, spare⟩ := descend_eq_ok tokens spare
    have run (p : Action α) : nested tokens p s =
        (p s.deeper).bind fun r => (ascend r.2).bind fun u => some (r.1, u.2) := bind_of_ok down
    refine (inner m rfl spare).wrapped (fun p p' same => by rw [run, run, same]) fun p beside => ?_
    rw [run]
    refine beside.of_deeper ?_ ?_
    · intro a position trace read
      rw [read]
      rfl
    · intro fault position depth trace read
      rw [read]
      exact ⟨depth, Nat.le_refl _, rfl⟩

theorem borrowed_follows : Follows tokens (fun n => borrowed tokens (p n)) (Rule.descend (Level.below revision n) l)
    s.place.Advances s := by
  cases n with
  | zero => exact ⟨_, .refused, 0, fun m _ => bind_of_error (descend_eq_error ends spare)⟩
  | succ m =>
    obtain ⟨down, spare⟩ := descend_eq_ok tokens spare
    refine (inner m rfl spare).wrapped (fun p p' same => ?_) fun p beside => ?_
    · rw [borrowed, borrowed, bind_of_ok down, bind_of_ok down]
      exact bind_congr same
    rw [borrowed, bind_of_ok down]
    refine beside.of_deeper ?_ ?_
    · intro a position trace read
      rw [bind_of_ok read]
      rfl
    · intro fault position depth trace read
      exact ⟨depth + 1, Nat.le_succ _, bind_of_error read⟩

end Deeper

end Levels

section Wrapped

/-- A call goes on as what is called does. -/
theorem called_follows {part : Part} {p : Nat → Action α} {q : Parse α}
    (inner : ∀ t : State, t.place = s.place → Follows tokens p q t.place.Advances t) :
    Follows tokens (fun n => called part (p n)) q s.place.Advances s := by
  let begun : State := ⟨s.place, s.trace ++ [.started part s.place]⟩
  have run (p : Action α) : called part p s = (p begun).bind fun r =>
      some (r.1, ⟨r.2.place, r.2.trace ++ [.ofOutcome part s.place r.2.place r.1]⟩) := rfl
  refine (inner begun rfl).wrapped (fun p p' same => by rw [run, run, same]) fun p beside => ?_
  rw [run]
  generalize p begun = r at beside
  generalize q (cursor tokens begun.place.position) = read at beside ⊢
  cases beside with
  | ok passed moved fair =>
    dsimp only [Option.bind_some]
    rw [List.append_assoc, List.append_assoc]
    refine .ok passed moved (List.forall_mem_append.mpr ⟨?_, List.forall_mem_append.mpr ⟨fair, ?_⟩⟩)
    · exact List.forall_mem_singleton.mpr trivial
    · exact List.forall_mem_singleton.mpr ⟨passed, moved⟩
  | error passed fair handed =>
    dsimp only [Option.bind_some]
    rw [List.append_assoc, List.append_assoc, List.append_assoc, ← List.append_assoc [_]]
    refine .error passed (List.forall_mem_append.mpr ⟨?_, fair⟩) (List.forall_mem_append.mpr ⟨handed, ?_⟩)
    · exact List.forall_mem_singleton.mpr trivial
    · exact List.forall_mem_singleton.mpr ⟨rfl, rfl⟩

/-- A first operand goes on, and the levels of whatever is chained to it are given back. -/
theorem chained_follows {first : Nat → Action Expr} {more : Nat → Expr → Action Expr} {readFirst : Parse Expr}
    {readMore : Expr → Parse Expr} (operand : Follows tokens first readFirst s.place.Advances s)
    (links : ∀ e t, t.place.depth = s.place.depth → Follows tokens (more · e) (readMore e) (fun _ => True) t) :
    Follows tokens (fun n => chained do more n (← first n)) (do readMore (← readFirst)) s.place.Advances s := by
  have whole : Follows tokens (fun n => do more n (← first n)) (do readMore (← readFirst))
      (s.place.position < ·.position) s :=
    operand.bind fun e t _ further => (links e t further.2).mono fun place passed _ =>
      Nat.lt_of_lt_of_le further.1 passed.position
  refine whole.wrapped (w := chained) (fun p p' same => bind_congr (s := s) same) fun p beside => ?_
  generalize run : p s = r at beside
  generalize (do readMore (← readFirst) : Parse Expr) (cursor tokens s.place.position) = read at beside ⊢
  rw [chained, get_bind]
  cases beside with
  | @ok a place events passed further fair =>
    have passed : Passed tokens s.place ⟨place.position, s.place.depth⟩ := { passed with depth := Nat.le_refl _ }
    rw [bind_of_ok run]
    exact .ok passed ⟨further, rfl⟩ fair
  | error passed fair handed =>
    rw [bind_of_error run]
    exact .error passed fair handed

end Wrapped

section Loops

variable {stop : TokenKind} {entry : Place} {item : Nat → Action α} {read : Parse α} {loop : Nat → Action (List α)}
  (ends : Ended tokens) (turns : ∀ n, loop (n + 1) = upTo tokens stop entry (item n) (loop n))
  (each : ∀ t : State, t.place.depth = entry.depth → Follows tokens item read t.place.Advances t)
include ends turns each

/-- A loop whose turns go on ends, with the levels that it was entered with and in front of its stop token. -/
theorem itemsUpTo_follows (count : Nat) (same : s.place.depth = entry.depth)
    (bound : tokens.length - 1 - s.place.position < count) :
    Follows tokens loop (Parse.itemsUpTo stop read count)
      (fun p => p.depth = entry.depth ∧ (cursor tokens p.position).current.kind = stop) s := by
  induction count generalizing s with
  | zero => cases bound
  | succ count ih =>
    refine .succ ?_
    simp only [turns, Parse.itemsUpTo]
    refine .current_bind ends (.ite (fun is => .pure ⟨same, is⟩) fun _ => ?_)
    refine .turned_bind same ?_
    refine .bind (each _ same) fun first t passed advances => ?_
    have further : s.place.position < t.place.position := advances.1
    have within := passed.within ends further
    exact .bind (ih (advances.2.trans same) (by omega)) fun others u _ post => .pure post

theorem items_follows (same : s.place.depth = entry.depth) :
    Follows tokens loop (Parse.items stop read)
      (fun p => p.depth = entry.depth ∧ (cursor tokens p.position).current.kind = stop) s := by
  unfold Follows
  rw [Parse.items, Parse.get_bind, length_rest]
  exact itemsUpTo_follows ends turns each _ same (Nat.lt_succ_self _)

end Loops

end StackLattice.Syntax.Descent
