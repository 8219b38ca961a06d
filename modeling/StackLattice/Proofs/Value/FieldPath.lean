import Mathlib.Data.List.Basic
import StackLattice.Proofs.Decimal.Digits
import StackLattice.Value.FieldPath

/-!
Paths tell labels apart. What is quoted ends at the first quote that no backslash stands before, and a label that is
not quoted has no dot in it, so the labels of a path can be read off from it.
-/

namespace StackLattice

namespace Text

/-- What stands behind a backslash in quoted text: the character it stands for, and the rest. -/
def readEscaped : List Char → Option (Char × List Char)
  | '0' :: cs => some ('\x00', cs)
  | 't' :: cs => some ('\t', cs)
  | 'r' :: cs => some ('\r', cs)
  | 'n' :: cs => some ('\n', cs)
  | 'u' :: '{' :: cs =>
    (Decimal.natural 16 (cs.takeWhile (· ≠ '}'))).map fun n => (Char.ofNat n, (cs.dropWhile (· ≠ '}')).tail)
  | c :: cs => some (c, cs)
  | [] => none

/-- The first character of quoted text, and the rest. -/
def readShown : List Char → Option (Char × List Char)
  | [] => none
  | c :: cs => if c = '\\' then readEscaped cs else some (c, cs)

theorem not_mem_hexDigits (n : Nat) : '}' ∉ hexDigits n := by
  intro member
  have digits : Decimal.natural 16 (hexDigits n) = some n := Decimal.natural_toDigits (by decide) (by decide) n
  have value := Decimal.isSome_digitValue_of_natural digits '}' member
  exact absurd value (by decide)

theorem readShown_escapeShown (c : Char) (rest : List Char) :
    readShown (escapeShown '"' c ++ rest) = some (c, rest) := by
  unfold escapeShown
  split_ifs with null tab ret newline quoted hidden
  · rw [null]
    rfl
  · rw [tab]
    rfl
  · rw [ret]
    rfl
  · rw [newline]
    rfl
  · rw [Bool.or_eq_true, decide_eq_true_eq, decide_eq_true_eq] at quoted
    rcases quoted with rfl | rfl <;> rfl
  · have upTo : ∀ d ∈ hexDigits c.toNat, decide (d ≠ '}') = true := fun d member =>
      decide_eq_true fun same => not_mem_hexDigits _ (same ▸ member)
    have digits : Decimal.natural 16 (hexDigits c.toNat) = some c.toNat :=
      Decimal.natural_toDigits (by decide) (by decide) _
    simp only [List.append_assoc, List.cons_append, List.nil_append, readShown, if_true, readEscaped,
      List.takeWhile_append_of_pos upTo, List.dropWhile_append_of_pos upTo]
    simp [digits, Char.ofNat_toNat]
  · have plain : c ≠ '\\' := fun backslash => quoted (by simp [backslash])
    rw [List.singleton_append, readShown, if_neg plain]

theorem escapeShown_append_inj {c d : Char} {cs ds : List Char}
    (same : escapeShown '"' c ++ cs = escapeShown '"' d ++ ds) : c = d ∧ cs = ds := by
  have read := readShown_escapeShown c cs
  rw [same, readShown_escapeShown] at read
  cases read
  exact ⟨rfl, rfl⟩

theorem escapeShown_append_ne (c : Char) (cs ds : List Char) : escapeShown '"' c ++ cs ≠ '"' :: ds := by
  intro same
  have first : (escapeShown '"' c).head? = some '"' := by
    have some : escapeShown '"' c ≠ [] := by
      unfold escapeShown
      split_ifs <;> simp
    have heads := congrArg List.head? same
    rwa [List.head?_append_of_ne_nil _ some] at heads
  unfold escapeShown at first
  split_ifs at first with _ _ _ _ quoted
  all_goals first
    | exact absurd first (by decide)
    | cases first
  exact quoted (by simp)

/-- Quoted text ends where its quotes do, so what stands behind it is set off. -/
theorem shown_append_inj {s t : String} {cs ds : List Char}
    (same : (shown s).toList ++ cs = (shown t).toList ++ ds) : s = t ∧ cs = ds := by
  have inside (xs ys : List Char) (same : xs.flatMap (escapeShown '"') ++ '"' :: cs =
      ys.flatMap (escapeShown '"') ++ '"' :: ds) : xs = ys ∧ cs = ds := by
    induction xs generalizing ys with
    | nil =>
      cases ys with
      | nil => exact ⟨rfl, (List.cons.inj same).2⟩
      | cons d ys =>
        rw [List.flatMap_cons, List.append_assoc] at same
        exact absurd same.symm (escapeShown_append_ne d _ _)
    | cons c xs ih =>
      cases ys with
      | nil =>
        rw [List.flatMap_cons, List.append_assoc] at same
        exact absurd same (escapeShown_append_ne c _ _)
      | cons d ys =>
        rw [List.flatMap_cons, List.flatMap_cons, List.append_assoc, List.append_assoc] at same
        obtain ⟨rfl, rest⟩ := escapeShown_append_inj same
        obtain ⟨rfl, behind⟩ := ih ys rest
        exact ⟨rfl, behind⟩
  simp only [shown, String.toList_ofList, List.cons_append, List.append_assoc, List.nil_append, List.cons.injEq,
    true_and] at same
  obtain ⟨chars, behind⟩ := inside _ _ same
  exact ⟨String.toList_injective chars, behind⟩

end Text

open Text (isAlphanumeric isAsciiDigit)

/-- Whether a label stands in a path as it is. -/
def isBareLabel (label : String) : Bool :=
  !label.toList.isEmpty && (isNameLabel label.toList || isIndexLabel label.toList)

theorem pathSegment_of_bare {label : String} (bare : isBareLabel label = true) : pathSegment label = label := if_pos bare

theorem pathSegment_of_quoted {label : String} (quoted : isBareLabel label = false) :
    pathSegment label = Text.shown label := if_neg (by rw [← isBareLabel, quoted]; exact Bool.false_ne_true)

theorem isAlphanumeric_of_isAsciiDigit {c : Char} (digit : isAsciiDigit c = true) : isAlphanumeric c = true := by
  have low : c.toNat < 0x80 := by
    rw [isAsciiDigit, Bool.and_eq_true, decide_eq_true_eq, decide_eq_true_eq] at digit
    exact Nat.lt_of_le_of_lt digit.2 (by decide)
  rw [isAlphanumeric, Text.isNumeric, if_pos low, digit, Bool.or_true]

/-- What a label that is not quoted is made of. -/
theorem of_mem_bare {label : String} (bare : isBareLabel label = true) {c : Char} (member : c ∈ label.toList) :
    isAlphanumeric c = true ∨ c = '_' ∨ c = '$' ∨ c = '#' := by
  rw [isBareLabel, Bool.and_eq_true, Bool.or_eq_true] at bare
  rcases bare.2 with name | index
  · cases whole : label.toList with
    | nil =>
      rw [whole] at member
      cases member
    | cons d rest =>
      rw [whole] at name member
      simp only [isNameLabel, Bool.and_eq_true, Bool.or_eq_true, beq_iff_eq, List.all_eq_true] at name
      rcases List.mem_cons.mp member with rfl | inRest
      · rcases name.1.1 with ((alphanumeric | rfl) | rfl) | rfl <;> simp_all
      · rcases name.1.2 c inRest with (alphanumeric | rfl) | rfl <;> simp_all
  · exact .inl (isAlphanumeric_of_isAsciiDigit (List.all_eq_true.mp index c member))

theorem not_mem_bare {label : String} (bare : isBareLabel label = true) {c : Char} (outside : c ∈ ['.', '"']) :
    c ∉ label.toList := by
  intro member
  have apart : isAlphanumeric '.' = false ∧ isAlphanumeric '"' = false := by decide +kernel
  rcases List.mem_pair.mp outside with rfl | rfl <;>
    rcases of_mem_bare bare member with alphanumeric | same | same | same <;>
    simp_all

theorem toList_pathSegment_ne_nil (label : String) : (pathSegment label).toList ≠ [] := by
  cases bare : isBareLabel label with
  | false =>
    rw [pathSegment_of_quoted bare, Text.shown, String.toList_ofList]
    exact List.cons_ne_nil _ _
  | true =>
    rw [pathSegment_of_bare bare]
    rw [isBareLabel, Bool.and_eq_true, Bool.not_eq_true'] at bare
    exact List.isEmpty_eq_false_iff.mp bare.1

theorem isEmpty_pathSegment (label : String) : (pathSegment label).isEmpty = false := by
  have some := toList_pathSegment_ne_nil label
  simpa using some

theorem bare_append_ne_shown {label : String} (bare : isBareLabel label = true) (s : String) (cs ds : List Char) :
    label.toList ++ cs ≠ (Text.shown s).toList ++ ds := by
  intro same
  have some := toList_pathSegment_ne_nil label
  rw [pathSegment_of_bare bare] at some
  obtain ⟨c, rest, whole⟩ := List.exists_cons_of_ne_nil some
  rw [whole, Text.shown, String.toList_ofList] at same
  have quote : c = '"' := (List.cons.inj same).1
  exact not_mem_bare bare (by simp) (quote ▸ whole ▸ List.mem_cons_self : '"' ∈ label.toList)

/-- What may stand behind a segment of a path: another segment or nothing. -/
def StartsWithDot (cs : List Char) : Prop := ∀ c ∈ cs.head?, c = '.'

theorem takeWhile_bare {label : String} (bare : isBareLabel label = true) {cs : List Char} (dot : StartsWithDot cs) :
    (label.toList ++ cs).takeWhile (· ≠ '.') = label.toList := by
  have before : ∀ c ∈ label.toList, decide (c ≠ '.') = true := fun c member =>
    decide_eq_true fun same => not_mem_bare bare (by simp) (same ▸ member)
  rw [List.takeWhile_append_of_pos before]
  cases cs with
  | nil => exact List.append_nil _
  | cons c cs => simp [dot c rfl]

/-- A segment ends where it seems to end. -/
theorem pathSegment_append_inj {label label' : String} {cs cs' : List Char} (dot : StartsWithDot cs)
    (dot' : StartsWithDot cs') (same : (pathSegment label).toList ++ cs = (pathSegment label').toList ++ cs') :
    label = label' ∧ cs = cs' := by
  cases bare : isBareLabel label with
  | false =>
    cases bare' : isBareLabel label' with
    | false =>
      rw [pathSegment_of_quoted bare, pathSegment_of_quoted bare'] at same
      exact Text.shown_append_inj same
    | true =>
      rw [pathSegment_of_quoted bare, pathSegment_of_bare bare'] at same
      exact absurd same.symm (bare_append_ne_shown bare' _ _ _)
  | true =>
    cases bare' : isBareLabel label' with
    | false =>
      rw [pathSegment_of_bare bare, pathSegment_of_quoted bare'] at same
      exact absurd same (bare_append_ne_shown bare _ _ _)
    | true =>
      rw [pathSegment_of_bare bare, pathSegment_of_bare bare'] at same
      have labels : label.toList = label'.toList := by
        rw [← takeWhile_bare bare dot, same, takeWhile_bare bare' dot']
      rw [labels] at same
      exact ⟨String.toList_injective labels, List.append_cancel_left same⟩

theorem joinPath_right_injective (path : String) : Function.Injective (joinPath path) := by
  have segments {label label' : String} (same : pathSegment label = pathSegment label') : label = label' := by
    have ends : StartsWithDot [] := fun _ impossible => by cases impossible
    exact (pathSegment_append_inj ends ends (congrArg (·.toList ++ []) same)).1
  intro label label' same
  unfold joinPath at same
  split at same
  · exact segments same
  · exact segments (String.append_right_inj _ |>.mp same)

/-- The segments behind the first one. -/
def furtherSegments (labels : List String) : List Char := labels.flatMap fun label => '.' :: (pathSegment label).toList

theorem startsWithDot_furtherSegments (labels : List String) : StartsWithDot (furtherSegments labels) := by
  cases labels with
  | nil => exact fun _ impossible => by cases impossible
  | cons label labels => exact fun c first => (Option.some.inj first).symm

theorem furtherSegments_injective : Function.Injective furtherSegments := by
  intro labels labels' same
  induction labels generalizing labels' with
  | nil =>
    cases labels' with
    | nil => rfl
    | cons label' labels' => cases same
  | cons label labels ih =>
    cases labels' with
    | nil => cases same
    | cons label' labels' =>
      obtain ⟨rfl, rest⟩ := pathSegment_append_inj (startsWithDot_furtherSegments labels)
        (startsWithDot_furtherSegments labels') (List.cons.inj same).2
      rw [ih rest]

theorem toList_foldl_joinPath {path : String} (some : path.isEmpty = false) (labels : List String) :
    (labels.foldl joinPath path).toList = path.toList ++ furtherSegments labels := by
  induction labels generalizing path with
  | nil => exact (List.append_nil _).symm
  | cons label labels ih =>
    have joined : joinPath path label = path ++ "." ++ pathSegment label := by
      rw [joinPath, some, if_neg Bool.false_ne_true]
    have still : (joinPath path label).isEmpty = false := by
      rw [joined]
      simp
    rw [List.foldl_cons, ih still, joined]
    simp [furtherSegments]

/-- A path of at least one label is its first segment and the further ones. -/
theorem toList_foldl_joinPath_cons (label : String) (labels : List String) :
    ((label :: labels).foldl joinPath "").toList = (pathSegment label).toList ++ furtherSegments labels := by
  have first : joinPath "" label = pathSegment label := by rw [joinPath]; exact if_pos rfl
  rw [List.foldl_cons, first, toList_foldl_joinPath (isEmpty_pathSegment label)]

/-- No two lists of labels have one path. -/
theorem foldl_joinPath_injective : Function.Injective fun labels : List String => labels.foldl joinPath "" := by
  intro labels labels' same
  have chars : (labels.foldl joinPath "").toList = (labels'.foldl joinPath "").toList := congrArg String.toList same
  cases labels with
  | nil =>
    cases labels' with
    | nil => rfl
    | cons label' labels' =>
      rw [toList_foldl_joinPath_cons] at chars
      exact absurd (List.append_eq_nil_iff.mp chars.symm).1 (toList_pathSegment_ne_nil label')
  | cons label labels =>
    cases labels' with
    | nil =>
      rw [toList_foldl_joinPath_cons] at chars
      exact absurd (List.append_eq_nil_iff.mp chars).1 (toList_pathSegment_ne_nil label)
    | cons label' labels' =>
      rw [toList_foldl_joinPath_cons, toList_foldl_joinPath_cons] at chars
      obtain ⟨rfl, rest⟩ := pathSegment_append_inj (startsWithDot_furtherSegments labels)
        (startsWithDot_furtherSegments labels') chars
      rw [furtherSegments_injective rest]

example : ["Stacks", "web-tier", "#Def", "0", "1a"].foldl joinPath "" = "Stacks.\"web-tier\".#Def.0.\"1a\"" := by
  decide +kernel

end StackLattice
