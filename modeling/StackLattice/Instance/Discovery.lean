import StackLattice.Instance.Basic

/-!
The instances that arguments name. A directory is one instance, and `dir/...` stands for every
directory at or below `dir` that has files of the package. Files of the package in directories from the
root down to that of an instance belong to it too. Arguments that are files make up one instance
together. No directory makes two instances.
-/

namespace StackLattice

open Syntax (ParsedFile Revision packageName)
open Workspace (Path Tree ReadError)

/-- What is looked for, and where. -/
structure Discovery where
  workspace : Workspace
  package : String := "cfn"
  /-- The directory that arguments are resolved against. -/
  root : Path := .here
  revision : Revision := .legacy

def commandLineArguments : String := "command-line-arguments"

inductive Argument
  | file
  /-- `base/...` -/
  | below (base : String)
  | directory
deriving DecidableEq, Repr

def sourceExtension : String := "cue"

/-- The directory whose subdirectories a pattern stands for. -/
def patternBase? (argument : List Char) : Option String :=
  match argument.reverse with
  | ['.', '.', '.'] => some "."
  | ['.', '.', '.', '/'] => some "/"
  | '.' :: '.' :: '.' :: '/' :: base => some (String.ofList base.reverse)
  | _ => none

def Argument.ofString (argument : String) : Argument :=
  if ((Path.ofString argument).fileName?.bind Workspace.extension?) = some sourceExtension then .file
  else
    match patternBase? argument.toList with
    | some base => .below base
    | none => .directory

/-- Names that are passed over unless they are asked for. -/
def isIgnored (name : String) : Bool := name.startsWith "." || name.startsWith "_"

def isSourceName (name : String) : Bool :=
  !isIgnored name && Workspace.extension? name == some sourceExtension

/-- Directories that a pattern goes into. -/
def isEntered (name : String) : Bool := !isIgnored name && name != "cue.mod"

/-- The files of the package in one directory that parse, and the errors of those that do not. -/
structure Scan where
  files : List ParsedFile := []
  errors : List LoadError := []

def Scan.isEmpty (s : Scan) : Bool := s.files.isEmpty && s.errors.isEmpty

def Scan.concat (scans : List Scan) : Scan := ⟨scans.flatMap (·.files), scans.flatMap (·.errors)⟩

namespace Discovery

variable (d : Discovery)

def cleanRoot : Path := d.root.clean

def resolve (argument : String) : Path := (d.root.join (.ofString argument)).clean

/-- Where a clean path lies below the root. -/
def relative? (p : Path) : Option (List String) := d.cleanRoot.below? p

/-- What a directory is called: its path from the root, or its path when it is not below the root (none
    is written for the current directory then). -/
def displayPath (p : Path) : String :=
  let shown := match d.relative? p with
    | some [] => "."
    | some names => "./" ++ "/".intercalate names
    | none => p.spelled
  String.ofList (shown.toList.map fun c => if c = '\\' then '/' else c)

/-- What a file is called in positions. -/
def fileName (p : Path) : String :=
  match d.relative? p with
  | some names => "/".intercalate names
  | none => p.spelled

/-- Parses a file that declares the package. -/
def scanText (p : Path) (text : String) : Scan :=
  match ParsedFile.read (d.fileName p) text d.revision false with
  | .ok file => { files := [file] }
  | .error e => { errors := [.ofSyntax e] }

/-- A file met in a directory is passed over when it does not declare the package. -/
def scanFile (p : Path) (content : Except ReadError String) : Scan :=
  match content with
  | .error e => { errors := [.unreadable p.render e] }
  | .ok text => if packageName text = some d.package then d.scanText p text else {}

/-- The files of the package in a directory, by name. -/
def scan (directory : Path) : Scan :=
  match d.workspace.find directory with
  | .error e => { errors := [.unreadable directory.render e] }
  | .ok t =>
    .concat <| (t.files.filter (isSourceName ·.1)).map fun (name, content) =>
      d.scanFile (directory.child name) content

/-- Directories from the root down to one below it, without that one. -/
def ancestors (directory : Path) : List Path :=
  match d.relative? directory with
  | none => []
  | some names =>
    (List.range names.length).map fun n => (names.take n).foldl Path.child d.cleanRoot

def failed (displayPath : String) (e : LoadError) : Instance :=
  { displayPath, package := d.package, errors := [e] }

/-- The instance of a directory whose own files are given. -/
def emit (directory : Path) (own : Scan) : Instance :=
  let s := Scan.concat ((d.ancestors directory).map d.scan ++ [own])
  { displayPath := d.displayPath directory, package := d.package,
    directory := some directory.render, files := s.files, errors := s.errors }

/-- Instances found so far, and the directories that are not looked at again. -/
structure Found where
  instances : List Instance := []
  seen : List Path := []

namespace Found

def add (f : Found) (i : Instance) : Found := { f with instances := f.instances ++ [i] }

def mark (f : Found) (directory : Path) : Found := { f with seen := directory :: f.seen }

end Found

def addDirectory (f : Found) (argument : String) : Found :=
  let directory := d.resolve argument
  if !d.workspace.isDirectory directory then f.add (d.failed argument (.notFound argument))
  else if f.seen.contains directory then f
  else
    let own := d.scan directory
    let i :=
      if own.isEmpty then
        d.failed (d.displayPath directory) (.noFiles directory.render d.package)
      else d.emit directory own
    (f.add i).mark directory

/-- Adds the directories that are new among those that a pattern matched. -/
def addMatched (f : Found) : List Path → Found
  | [] => f
  | directory :: others =>
    let f :=
      if f.seen.contains directory then f
      else (f.add (d.emit directory (d.scan directory))).mark directory
    addMatched f others

/-- Directories at or below a base that hold files of the package, each before those inside it. -/
def matching (base : Path) : List Path :=
  match d.workspace.find base with
  | .error _ => []
  | .ok t => (t.directoriesFrom isEntered base).filter fun p => !(d.scan p).isEmpty

def addPattern (f : Found) (argument base : String) : Found :=
  let base := d.resolve base
  if !d.workspace.isDirectory base then f.add (d.failed argument (.notFound argument))
  else
    match d.matching base with
    | [] => f.add (d.failed argument (.noMatch argument d.package))
    | matched => d.addMatched f matched

/-- A file that was asked for has to declare the package. -/
def scanArgument (argument : String) : Scan :=
  let p := d.resolve argument
  match d.workspace.read p with
  | .error e => { errors := [.unreadable p.render e] }
  | .ok text =>
    let found := packageName text
    if found = some d.package then d.scanText p text
    else { errors := [.otherPackage (d.fileName p) d.package found] }

def addFiles (f : Found) (arguments : List String) : Found :=
  let s := Scan.concat (arguments.map d.scanArgument)
  let directory := (arguments.head?.bind fun a => (d.resolve a).parent?).map Path.render
  f.add { displayPath := commandLineArguments, package := d.package, directory, files := s.files,
          errors := s.errors }

/-- Takes the arguments in turn; the first file stands for all of them. -/
def addAll (files : List String) (f : Found) : Bool → List String → Found
  | _, [] => f
  | filesAdded, argument :: arguments =>
    match Argument.ofString argument with
    | .file => addAll files (if filesAdded then f else d.addFiles f files) true arguments
    | .below base => addAll files (d.addPattern f argument base) filesAdded arguments
    | .directory => addAll files (d.addDirectory f argument) filesAdded arguments

/-- The instances that arguments name, in their order; no arguments stand for `./...`. -/
def instances (arguments : List String) : List Instance :=
  let arguments := if arguments.isEmpty then ["./..."] else arguments
  let files := arguments.filter fun a => Argument.ofString a = .file
  (d.addAll files {} false arguments).instances

end Discovery

end StackLattice
