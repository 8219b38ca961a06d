import StackLattice.Proofs.Evaluation.Agreement
import StackLattice.Proofs.Evaluation.Exported
import StackLattice.Proofs.Evaluation.Order

/-!
The order of the files of a package.
-/

namespace StackLattice

namespace Evaluation

open Syntax (Decl LabelKind ParsedFile)

variable {kinds : String → LabelKind} {files files' : List ParsedFile}

theorem led_files (trail : Trail) (name : String) (files : List ParsedFile) :
    Declared.Led name (mentionsAt trail (files.flatMap fun file => declsMentions [] file file.tree.decls)) := by
  induction files with
  | nil => exact Declared.led_of_silent fun m member => by cases member
  | cons file files ih =>
    rw [List.flatMap_cons, mentionsAt_append]
    exact (led_declsMentions file trail name [] file.tree.decls).append ih

/-- In whatever order the files are, the bodies of the package are the same but for the order of what is declared
    in them. -/
theorem rootEnv_alike (perm : files.Perm files') (tame : ∀ file ∈ files, Decl.TameAll kinds file.tree.decls) :
    (rootEnv files).Alike kinds (rootEnv files') := by
  refine .cons ⟨rfl, ?_⟩ .nil
  refine ⟨perm.flatMap_right _, fun trail name => led_files trail name files,
    fun trail name => led_files trail name files', fun m member => ?_⟩
  obtain ⟨file, inside, member⟩ := List.mem_flatMap.mp member
  exact tame_declsMentions (tame file inside) m member

/-- Values that settle in rearranged bodies have the same branches. -/
theorem branches_of_settles {env env' : Env} (alike : env.Alike kinds env') {v v' : Value}
    (left : Settles (fun n => Closure.meaning n (.body env)) (.ok v))
    (right : Settles (fun n => Closure.meaning n (.body env')) (.ok v')) :
    v.Tame kinds ∧ v'.Tame kinds ∧ v.branches = v'.branches := by
  obtain ⟨fuel, enough⟩ := left.eventually
  obtain ⟨fuel', enough'⟩ := right.eventually
  obtain ⟨F, denotes, denotes'⟩ := meaning_agree (max fuel fuel') _ _ (.body alike)
  obtain ⟨tame, same⟩ := denotes _ (enough _ (Nat.le_max_left _ _))
  obtain ⟨tame', same'⟩ := denotes' _ (enough' _ (Nat.le_max_right _ _))
  exact ⟨tame, tame', same.trans same'.symm⟩

end Evaluation

open Evaluation

theorem Package.value_of_document {files : List Syntax.ParsedFile} {d : Document}
    (h : Package.document files = .ok d) : ∃ v, Package.value files = .ok v ∧ v.Exports d := by
  obtain ⟨v, evaluated, exported⟩ := Value.bind_eq_ok h
  exact ⟨v, evaluated, _, _, _, exported⟩

/-- Without default marks, and with one kind for each label, the order of the files does not show in the document
    but as an order of entries. -/
theorem Package.document_of_perm {kinds : String → Syntax.LabelKind} {files files' : List Syntax.ParsedFile}
    (perm : files.Perm files') (tame : ∀ file ∈ files, Syntax.Decl.TameAll kinds file.tree.decls)
    {d d' : Document} (h : Package.document files = .ok d) (h' : Package.document files' = .ok d') :
    d.same d' = true := by
  obtain ⟨v, evaluated, exported⟩ := value_of_document h
  obtain ⟨v', evaluated', exported'⟩ := value_of_document h'
  have left := ((root_agrees files).2 0).settles fun e impossible => by
    rw [evaluated] at impossible
    cases impossible
  have right := ((root_agrees files').2 0).settles fun e impossible => by
    rw [evaluated'] at impossible
    cases impossible
  rw [evaluated] at left
  rw [evaluated'] at right
  obtain ⟨tameV, tameV', same⟩ := branches_of_settles (rootEnv_alike perm tame) left right
  exact Value.document_same tameV tameV' same exported exported'

namespace Package

open Syntax (Decl Expr LabelKind ParsedFile)

def fileOf (decls : List Decl) : ParsedFile := ⟨⟨"a.cue", ""⟩, ⟨none, [], decls, [], []⟩⟩

def declare (label : String) (kind : LabelKind) (value : Expr) : Decl :=
  .field ⟨label, kind, default⟩ false [] default value

def nameOf (label : String) : Expr := .ident ⟨label, default⟩

/-- `port: int` and `port: 80` in either order. -/
theorem document_of_perm_port :
    let files := [fileOf [declare "port" .regular (nameOf "int")], fileOf [declare "port" .regular (.int 80 default)]]
    let files' := [fileOf [declare "port" .regular (.int 80 default)], fileOf [declare "port" .regular (nameOf "int")]]
    ∃ d d', Package.document files = .ok d ∧ Package.document files' = .ok d' ∧ d.same d' = true := by
  intro files files'
  have left : (Package.document files).toBool = true := by decide +kernel
  have right : (Package.document files').toBool = true := by decide +kernel
  have tame : ∀ file ∈ files, Decl.TameAll (fun _ => .regular) file.tree.decls := by
    simp [files, fileOf, declare, nameOf, Decl.TameAll, Syntax.Decl.EverywhereAll, Syntax.Decl.Everywhere,
      Syntax.Expr.Everywhere, Syntax.Expr.TameHere]
  cases h : Package.document files with
  | error e =>
    rw [h] at left
    cases left
  | ok d =>
    cases h' : Package.document files' with
    | error e =>
      rw [h'] at right
      cases right
    | ok d' => exact ⟨d, d', rfl, rfl, document_of_perm (.swap _ _ _) tame h h'⟩

/-- Whether two lists of files have documents, and different ones. -/
def differs (files files' : List ParsedFile) : Bool :=
  match Package.document files, Package.document files' with
  | .ok d, .ok d' => !d.same d'
  | _, _ => false

theorem exists_of_differs {files files' : List ParsedFile} (h : differs files files' = true) :
    ∃ d d', Package.document files = .ok d ∧ Package.document files' = .ok d' ∧ d.same d' = false := by
  unfold differs at h
  split at h
  · rename_i d d' left right
    exact ⟨d, d', left, right, by simpa using h⟩
  · cases h

def listOf (items : List Expr) : Expr := .list items default

def number (n : Nat) : Expr := .int n default

def either (left right : Expr) : Expr := .binary .disjoin left right

def marked (e : Expr) : Expr := .unary .mark e default

/-- `_d: *[1 | 2] | [2 | 1]`, the only default of its field -/
def oneDefault : ParsedFile :=
  fileOf [declare "_d" .hidden (either (marked (listOf [either (number 1) (number 2)]))
    (listOf [either (number 2) (number 1)]))]

/-- `_d: [1 | 2 | 3]` -/
def noDefault : ParsedFile :=
  fileOf [declare "_d" .hidden (listOf [either (either (number 1) (number 2)) (number 3)])]

/-- `_f: (_d | [7]) & [1 | 7]`, `_x: _f & ([1] | *[7])` and `z: _f & _x` -/
def otherDefault : ParsedFile :=
  fileOf [declare "_f" .hidden (.binary .unify (.paren (either (nameOf "_d") (listOf [number 7])) default)
      (listOf [either (number 1) (number 7)])),
    declare "_x" .hidden (.binary .unify (nameOf "_f")
      (.paren (either (listOf [number 1]) (marked (listOf [number 7]))) default)),
    declare "z" .regular (.binary .unify (nameOf "_f") (nameOf "_x"))]

/-- Two defaults of two fields are enough for the order of the files to show: unified in one order, the first is
    lost to an equal alternative, and then it is the second that counts. So are two kinds of one label. -/
theorem document_depends_on_order :
    (¬ ∀ files files' : List ParsedFile, files.Perm files' → ∀ d d', Package.document files = .ok d →
      Package.document files' = .ok d' → d.same d' = true) ∧
    differs [oneDefault, noDefault, otherDefault] [noDefault, oneDefault, otherDefault] = true ∧
    differs [fileOf [declare "a" .regular (number 1)], fileOf [declare "a" .definition (number 1)]]
      [fileOf [declare "a" .definition (number 1)], fileOf [declare "a" .regular (number 1)]] = true := by
  have defaults : differs [oneDefault, noDefault, otherDefault] [noDefault, oneDefault, otherDefault] = true := by
    decide +kernel
  refine ⟨fun claim => ?_, defaults, by decide +kernel⟩
  obtain ⟨d, d', left, right, apart⟩ := exists_of_differs defaults
  have same := claim _ _ (.swap _ _ _) d d' left right
  rw [apart] at same
  cases same

end Package

end StackLattice
