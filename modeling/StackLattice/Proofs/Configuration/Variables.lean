import Mathlib.Data.List.TakeDrop
import StackLattice.Configuration.Layers
import StackLattice.Proofs.Decimal.Digits
import StackLattice.Proofs.Value.Unify

/-!
Settings that are texts, from variables and from flags. The text of a flag is taken as it is, and that of a variable as
it is read, so the two mean the same unless the text is written like another value.
-/

namespace StackLattice

open CommandLine (GlobalFlags)

namespace Setting

/-- What starts as a name does, and has no blank and no dot in it. -/
structure IsWord (cs : List Char) : Prop where
  starts : ∃ c rest, cs = c :: rest ∧ (c.isAlpha = true ∨ c = '_')
  solid : ∀ c ∈ cs, Text.isBlank c = false
  dotless : '.' ∉ cs

section Words

variable {cs : List Char}

theorem skipSpace_of_solid (solid : ∀ c ∈ cs, Text.isBlank c = false) : skipSpace cs = cs := by
  cases cs with
  | nil => rfl
  | cons c cs =>
    refine List.dropWhile_cons_of_neg fun space => ?_
    have apart := solid c List.mem_cons_self
    simp only [isSpace, Bool.or_eq_true, beq_iff_eq] at space
    obtain (((rfl | rfl) | rfl) | rfl) | rfl := space <;> cases apart

theorem trim_of_solid (solid : ∀ c ∈ cs, Text.isBlank c = false) : Text.trim cs = cs := by
  have kept {ds : List Char} (solid : ∀ c ∈ ds, Text.isBlank c = false) : ds.dropWhile Text.isBlank = ds := by
    cases ds with
    | nil => rfl
    | cons d ds => exact List.dropWhile_cons_of_neg (by simp [solid d List.mem_cons_self])
  rw [Text.trim, Text.trimEnd, kept solid, kept (by simpa using solid), List.reverse_reverse]

theorem IsWord.not_numeral (word : IsWord cs) (n : Nat) : ¬Decimal.Numeral 10 cs n := by
  rintro ⟨-, digits, all, -⟩
  obtain ⟨c, rest, rfl, start⟩ := word.starts
  have figures : ∀ d < 10, ∀ c, c = d.digitChar ∨ c = d.digitChar.toUpper → ¬(c.isAlpha = true ∨ c = '_') := by
    simp only [forall_eq_or_imp, forall_eq]
    decide
  cases all with
  | cons first _ => exact figures _ first.1 c first.2 start

theorem IsWord.head_ne {c : Char} {rest : List Char} (word : IsWord (c :: rest)) {d : Char}
    (other : d.isAlpha = false ∧ d ≠ '_') : c ≠ d := by
  rintro rfl
  obtain ⟨_, _, ⟨⟩, letter | line⟩ := word.starts
  · exact Bool.noConfusion (letter.symm.trans other.1)
  · exact other.2 line

theorem IsWord.naturalBelow (word : IsWord cs) (bound : Nat) : Decimal.naturalBelow 10 bound cs = none := by
  refine Option.eq_none_iff_forall_ne_some.mpr fun n read => ?_
  obtain ⟨-, numeral | ⟨rest, rfl, -⟩⟩ := (Decimal.naturalBelow_eq_some_iff (by decide)).mp read
  · exact word.not_numeral n numeral
  · exact word.head_ne (by decide) rfl

theorem IsWord.ofWord (word : IsWord cs) : ofWord cs = .text (String.ofList cs) := by
  have signed : Decimal.integerWithin 10 (1 <<< 63) cs = none := by
    unfold Decimal.integerWithin
    split
    · exact absurd rfl (word.head_ne (by decide))
    · rw [word.naturalBelow]
      rfl
  rw [Setting.ofWord, trim_of_solid word.solid]
  simp only [List.contains_eq_mem, word.dotless, decide_false, word.naturalBelow, signed]
  rfl

theorem passWord_eq {name : String} {rest : List Char} (passed : Toml.passWord name cs = some rest) :
    cs = name.toList ++ rest := by
  unfold Toml.passWord at passed
  split at passed
  · rename_i start
    obtain ⟨behind, rfl⟩ := List.isPrefixOf_iff_prefix.mp start
    cases passed
    rw [← String.length_toList, List.drop_left]
  · cases passed

/-- What is read of a word that is followed by nothing is the word itself. -/
theorem IsWord.text_of_literal (word : IsWord cs) (first : cs ≠ "true".toList) (second : cs ≠ "false".toList)
    {n : Nat} {setting : Setting} (read : literal n cs = some (setting, [])) : setting = .text (String.ofList cs) := by
  have part {front rest : List Char} (parts : cs = front ++ rest) : skipSpace rest = rest :=
    skipSpace_of_solid fun c inside => word.solid c (parts ▸ List.mem_append_right _ inside)
  have named {name : String} {rest : List Char} (passed : Toml.passWord name cs = some rest)
      (other : cs ≠ name.toList) : skipSpace rest ≠ [] := by
    have parts := passWord_eq passed
    rw [part parts]
    rintro rfl
    exact other (parts.trans (List.append_nil _))
  unfold literal at read
  rw [skipSpace_of_solid word.solid] at read
  dsimp only at read
  split at read
  · rename_i passed
    exact absurd (Prod.mk.inj (Option.some.inj read)).2 (named passed first)
  · rename_i passed
    exact absurd (Prod.mk.inj (Option.some.inj read)).2 (named passed second)
  · split at read
    · exact absurd rfl (word.head_ne (by decide))
    · exact absurd rfl (word.head_ne (by decide))
    · exact absurd rfl (word.head_ne (by decide))
    · exact absurd rfl (word.head_ne (by decide))
    · exact absurd rfl (word.head_ne (by decide))
    · obtain ⟨same, all⟩ := Prod.mk.inj (Option.some.inj read)
      rw [List.span_eq_takeWhile_dropWhile] at same all
      have parts := (List.takeWhile_append_dropWhile (p := (!isMark ·)) (l := cs)).symm
      dsimp only at same all
      rw [part parts] at all
      rw [all, List.append_nil] at parts
      rw [← same, ← parts, word.ofWord]

/-- A word is read as it is, but for two of them. -/
theorem ofText_word {s : String} (word : IsWord s.toList) (first : s ≠ "true") (second : s ≠ "false") :
    ofText s = .text s := by
  unfold ofText
  dsimp only
  split
  · rename_i read
    rw [word.text_of_literal (mt String.toList_inj.mp first) (mt String.toList_inj.mp second) read,
      String.ofList_toList]
  · rfl

end Words
end Setting

inductive TextSetting
  | package
  | exclude
  | logLevel
deriving DecidableEq, Repr

namespace TextSetting

def key : TextSetting → String
  | package => "package"
  | exclude => "exclude"
  | logLevel => "log_level"

def variableName : TextSetting → String
  | package => "STX_PACKAGE"
  | exclude => "STX_EXCLUDE"
  | logLevel => "STX_LOG_LEVEL"

/-- Flags with another value of the setting, or without it. -/
def inFlags (flags : GlobalFlags) (value : Option String) : TextSetting → GlobalFlags
  | package => { flags with package := value }
  | exclude => { flags with exclude := value }
  | logLevel => { flags with logLevel := value }

def ofConfiguration (c : Configuration) : TextSetting → Option String
  | package => some c.package
  | exclude => c.exclude
  | logLevel => c.logLevel

end TextSetting

namespace Layer

variable {key : String}

theorem get?_append (first second : Layer) (key : String) :
    (first ++ second).get? key = (second.get? key).or (first.get? key) := by
  rw [get?, List.reverse_append, List.lookup_append]
  rfl

theorem get?_entry (name key : String) (value : Option Setting) :
    get? (value.map fun s => (name, s)).toList key = if key = name then value else none := by
  cases value with
  | none => simp [get?]
  | some s =>
    by_cases same : key = name
    · simp [get?, same]
    · simp [get?, List.lookup_cons, same, beq_false_of_ne same]

theorem get?_ofFlags (flags : GlobalFlags) (key : String) :
    (ofFlags flags).get? key =
      if key = "package" then flags.package.map .text
      else if key = "exclude" then flags.exclude.map .text
      else if key = "concurrency" then flags.concurrency.map fun n : Nat => .integer n
      else if key = "log_level" then flags.logLevel.map .text
      else if key = "color" then if flags.noColor then some (.bool false) else none
      else none := by
  have limit : ((do let n ← flags.concurrency; pure (n : Int)).map fun n : Int => Setting.integer n) =
      flags.concurrency.map fun n : Nat => .integer n := by cases flags.concurrency <;> rfl
  simp only [ofFlags, get?_append, get?_entry, limit]
  split_ifs <;> simp_all

theorem ofVariable?_variableName (setting : TextSetting) (s : String) :
    ofVariable? setting.variableName s = some (setting.key, .ofText s) := by
  cases setting <;> rfl

section Flags

variable (setting : TextSetting) (flags : GlobalFlags)

theorem get?_inFlags (value : Option String) :
    (ofFlags (setting.inFlags flags value)).get? setting.key = value.map .text := by
  cases setting <;> simp [get?_ofFlags, TextSetting.inFlags, TextSetting.key]

theorem get?_inFlags_of_ne (value other : Option String) (apart : key ≠ setting.key) :
    (ofFlags (setting.inFlags flags value)).get? key = (ofFlags (setting.inFlags flags other)).get? key := by
  cases setting <;> simp only [get?_ofFlags, TextSetting.inFlags, TextSetting.key] at apart ⊢ <;> simp [apart]

end Flags

section Variables

variable {setting : TextSetting} {back : List (String × String)}

theorem ofVariables_append (front back : List (String × String)) :
    ofVariables (front ++ back) = ofVariables front ++ ofVariables back := List.filterMap_append

theorem ofVariables_cons (setting : TextSetting) (s : String) (back : List (String × String)) :
    ofVariables ((setting.variableName, s) :: back) = [(setting.key, .ofText s)] ++ ofVariables back :=
  List.filterMap_cons_some (ofVariable?_variableName setting s)

/-- What no variable sets is not in the layer of the variables. -/
theorem get?_ofVariables_eq_none (unset : ∀ v ∈ back, ∀ e ∈ ofVariable? v.1 v.2, e.1 ≠ key) :
    (ofVariables back).get? key = none := by
  rw [get?, List.lookup_eq_none_iff]
  intro e member
  obtain ⟨v, inside, read⟩ := List.mem_filterMap.mp (List.mem_reverse.mp member)
  exact bne_iff_ne.mpr (unset v inside e read).symm

end Variables

end Layer

namespace Configuration

variable {setting : TextSetting} {layer layer' : Layer} {c : Configuration}

theorem ofLayer_congr (same : ∀ key, layer.get? key = layer'.get? key) : ofLayer layer = ofLayer layer' := by
  simp only [ofLayer, Configuration.setting, same]

theorem text_of_setting {key : String} {a : Option String}
    (made : Configuration.setting layer key Setting.text? = .ok a) {value : Setting} (found : layer.get? key = some value) :
    ∃ s, value = .text s ∧ a = some s := by
  rw [Configuration.setting, found] at made
  cases value with
  | text s =>
    cases made
    exact ⟨s, rfl, rfl⟩
  | bool | integer | float | list | table => cases made

/-- What wins has to be a text, and is the setting then. -/
theorem ofLayer_eq_ok (made : ofLayer layer = .ok c) {value : Setting} (found : layer.get? setting.key = some value) :
    ∃ s, value = .text s ∧ setting.ofConfiguration c = some s := by
  obtain ⟨package, setPackage, made⟩ := Value.bind_eq_ok made
  obtain ⟨exclude, setExclude, made⟩ := Value.bind_eq_ok made
  obtain ⟨_, _, made⟩ := Value.bind_eq_ok made
  obtain ⟨logLevel, setLogLevel, made⟩ := Value.bind_eq_ok made
  obtain ⟨_, _, made⟩ := Value.bind_eq_ok made
  obtain ⟨_, _, made⟩ := Value.bind_eq_ok made
  cases made
  cases setting with
  | package =>
    obtain ⟨s, rfl, rfl⟩ := text_of_setting setPackage found
    exact ⟨s, rfl, rfl⟩
  | exclude => exact text_of_setting setExclude found
  | logLevel => exact text_of_setting setLogLevel found

section Sources

variable (setting : TextSetting) (flags : GlobalFlags) (file : Layer) (front back : List (String × String)) (s : String)

/-- All layers, with a variable for a setting and no flag for it. -/
def withVariable : Layer :=
  file ++ Layer.ofVariables (front ++ (setting.variableName, s) :: back) ++
    Layer.ofFlags (setting.inFlags flags none)

/-- All layers, with a flag for a setting and no such variable. -/
def withFlag : Layer :=
  file ++ Layer.ofVariables (front ++ back) ++ Layer.ofFlags (setting.inFlags flags (some s))

theorem get?_withFlag : (withFlag setting flags file front back s).get? setting.key = some (.text s) := by
  rw [withFlag, Layer.get?_append, Layer.get?_inFlags]
  rfl

variable {setting} {back}

theorem get?_withVariable (last : ∀ v ∈ back, ∀ e ∈ Layer.ofVariable? v.1 v.2, e.1 ≠ setting.key) :
    (withVariable setting flags file front back s).get? setting.key = some (.ofText s) := by
  rw [withVariable, Layer.get?_append, Layer.get?_inFlags, Layer.ofVariables_append, Layer.ofVariables_cons,
    Layer.get?_append, Layer.get?_append, Layer.get?_append, Layer.get?_ofVariables_eq_none last]
  simp [Layer.get?]

theorem get?_withVariable_of_ne {key : String} (apart : key ≠ setting.key) (t : String) :
    (withVariable setting flags file front back s).get? key = (withFlag setting flags file front back t).get? key := by
  simp only [withVariable, withFlag, Layer.get?_append, Layer.ofVariables_append, Layer.ofVariables_cons,
    Layer.get?_inFlags_of_ne setting flags none (some t) apart]
  simp [Layer.get?, List.lookup_cons, beq_false_of_ne apart]

/-- A variable that is read as a text means what that text means as a flag. -/
theorem ofLayer_withVariable {t : String} (read : Setting.ofText s = .text t)
    (last : ∀ v ∈ back, ∀ e ∈ Layer.ofVariable? v.1 v.2, e.1 ≠ setting.key) :
    ofLayer (withVariable setting flags file front back s) = ofLayer (withFlag setting flags file front back t) := by
  refine ofLayer_congr fun key => ?_
  by_cases own : key = setting.key
  · rw [own, get?_withVariable flags file front s last, get?_withFlag, read]
  · exact get?_withVariable_of_ne flags file front s own t

end Sources

theorem load_of_file {w : Workspace} {file : Layer} (read : fileLayer w = .ok file) (env : List (String × String))
    (flags : GlobalFlags) : load w env flags = ofLayer (file ++ Layer.ofVariables env ++ Layer.ofFlags flags) := by
  rw [load, read]
  rfl

theorem load_of_fault {w : Workspace} {e : ConfigurationError} (fault : fileLayer w = .error e)
    (env : List (String × String)) (flags : GlobalFlags) : load w env flags = .error e := by
  rw [load, fault]
  rfl

end Configuration

end StackLattice
