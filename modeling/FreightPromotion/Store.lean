import FreightPromotion.Files.Tree
import FreightPromotion.Settings
import FreightPromotion.Trace

/-!
# The store

The settings are kept in one file.  A store that has no file holds the default
settings.

Saving never writes to that file.  The document is written to a temporary file
beside it, whose name holds the number of the process, and then takes the place
of the settings in one step.
-/

namespace FreightPromotion

open FreightPromotion.Files (Tree)
open FreightPromotion.Text (Bytes)

/-- The store at a path, as one process uses it. -/
structure Store where
  path : String
  process : Nat
deriving DecidableEq, Repr

namespace Store

/-- The path of the temporary file. -/
def temporaryPath (store : Store) : String :=
  Files.withExtension store.path ("tmp." ++ toString store.process)

/-- The settings in the store. -/
def load (store : Store) (tree : Tree) : Result Settings :=
  match tree.read store.path with
  | .error .notFound => .ok {}
  | .error fault => .error { labels := ["read " ++ store.path], cause := .file fault }
  | .ok content =>
    match Json.read Settings.read content with
    | .ok settings => .ok settings
    | .error fault => .error { labels := ["parse " ++ store.path], cause := .malformed fault }

/-- What is written for settings. -/
def contentOf (settings : Settings) : Bytes :=
  Text.encode settings.document.pretty

/-- The failure of one part of a replacement. -/
def replaceFailure (label : String) (fault : FileFault) : Failure :=
  { labels := [label], cause := .file fault }

/-- Makes the directories above the path. -/
def makeParents (store : Store) (tree : Tree) : Tree × Result Unit :=
  match Files.parent? store.path with
  | none => (tree, .ok ())
  | some directory =>
    let (tree, result) := tree.makeDirectories (Files.ancestors directory)
    (tree, result.mapError (replaceFailure "create parent directories"))

/-- Writes the temporary file: makes it empty, and then appends the content. -/
def writeTemporary (store : Store) (content : Bytes) (tree : Tree) : Tree × Result Unit :=
  let failure := replaceFailure ("write temp file " ++ store.temporaryPath)
  match tree.truncate store.temporaryPath with
  | .error fault => (tree, .error (failure fault))
  | .ok tree =>
    match tree.append store.temporaryPath content with
    | .error fault => (tree, .error (failure fault))
    | .ok tree => (tree, .ok ())

/-- Moves the temporary file to the path. -/
def moveIntoPlace (store : Store) (tree : Tree) : Tree × Result Unit :=
  match tree.rename store.temporaryPath store.path with
  | .ok tree => (tree, .ok ())
  | .error fault =>
    (tree, .error (replaceFailure ("rename " ++ store.temporaryPath ++ " -> " ++ store.path) fault))

/-- Replaces the content of the store. -/
def replace (store : Store) (content : Bytes) (tree : Tree) : Tree × Result Unit :=
  match store.makeParents tree with
  | (tree, .error failure) => (tree, .error failure)
  | (tree, .ok ()) =>
    match store.writeTemporary content tree with
    | (tree, .error failure) => (tree, .error failure)
    | (tree, .ok ()) => store.moveIntoPlace tree

/-- The event that follows a save. -/
def savedEvent (store : Store) : Event where
  level := .debug
  source := "kargo::config"
  message := "saved cli config"
  fields := [("path", .plain store.path)]

/-- Saves settings. -/
def save (store : Store) (settings : Settings) (tree : Tree) : Traced (Tree × Result Unit) :=
  match store.replace (contentOf settings) tree with
  | (tree, .error failure) =>
    return (tree, .error (failure.within ("write " ++ store.path)))
  | (tree, .ok ()) => do
    Traced.log store.savedEvent
    return (tree, .ok ())

/-- Changes the settings in the store, and returns what was saved. -/
def update (store : Store) (change : Settings → Settings) (tree : Tree) :
    Traced (Tree × Result Settings) :=
  match store.load tree with
  | .error failure => return (tree, .error failure)
  | .ok settings => do
    let (tree, result) ← store.save (change settings) tree
    return (tree, result.map fun _ => change settings)

end Store

end FreightPromotion
