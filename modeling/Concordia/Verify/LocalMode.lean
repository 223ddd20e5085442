import Concordia.Verify.UrlMode

/-! `verifyLocal`: the registry and its artifacts from a file system that answers each step anew.
An absolute path is the list of its segments. -/
namespace Concordia.Verify
open Concordia.Js Concordia.Lib.Session

section Paths

def slash : UInt16 := 0x2f

/-- One segment of `path.resolve`. -/
def resolveSegment (path : List JsString) (segment : JsString) : List JsString :=
  if segment = [] ∨ segment = [period] then path
  else if segment = [period, period] then path.dropLast
  else path ++ [segment]

/-- `path.resolve(base, text)`. -/
def resolvePath (base : List JsString) (text : JsString) : List JsString :=
  (text.splitOn slash).foldl resolveSegment (if text.head? = some slash then [] else base)

/-- The segments of `path.relative(base, target)`. -/
def relativePath : List JsString → List JsString → List JsString
  | b :: base, t :: target =>
    if b = t then relativePath base target
    else (b :: base).map (fun _ => [period, period]) ++ t :: target
  | base, target => base.map (fun _ => [period, period]) ++ target

/-- A relative path is never absolute: it begins with a segment. -/
def isPathInside (baseDirectory target : List JsString) : Bool :=
  match relativePath baseDirectory target with
  | [] => true
  | segment :: _ => segment != [period, period]

end Paths

section World

/-- An error of `node:fs`; the code is missing where Node gives none. -/
structure FsError where
  code : Option String
  message : JsString

structure Stats where
  isFile : Bool
  size : Nat
  dev : Nat
  ino : Nat

/-- The file system. The numbers in front are the steps, a handle is a number. -/
structure FileSystem where
  cwd : List JsString
  realpath : Nat → List JsString → Except FsError (List JsString)
  /-- `open`; the flag is `O_NOFOLLOW`. -/
  openFile : Nat → List JsString → Bool → Except FsError Nat
  handleStat : Nat → Nat → Except FsError Stats
  stat : Nat → List JsString → Except FsError Stats
  /-- `handle.read(chunk, 0, capacity, position)`: the bytes read. -/
  read : Nat → Nat → Nat → Nat → Except FsError (List UInt8)

/-- Everything that is thrown; `input` is a `LocalInputError`. -/
inductive LocalThrown where
  | input (status : ResultStatus) (code : String) (message : JsString)
  | strictJson (error : StrictJsonError)
  | node (error : FsError)
  | error (message : JsString)

abbrev Local := Program Nat LocalThrown

def call {α : Type} (question : Nat → Except FsError α) : Local α := fun step =>
  ((question step).mapError .node, step + 1)

def isMissing (error : FsError) : Bool := error.code == some "ENOENT"

/-- `catch (error)` around a call for an artifact: a missing file is skipped. -/
def tryCall {α : Type} (question : Nat → Except FsError α) : Local (Option α) :=
  (some <$> call question).attempt fun
    | .node error =>
      if isMissing error then pure none
      else Program.raise (.input .unavailable "artifact_read_failed" error.message)
    | thrown => Program.raise thrown

end World

section Reading
variable (fs : FileSystem)

def fileReadChunkBytes : Nat := 64 * 1024

/-- The loop of `readBoundedHandle`; the fuel ends when the position has passed the maximum. -/
def readLoop (tooLarge : LocalThrown) (handle maximumBytes : Nat) :
    Nat → Nat → List (List UInt8) → Local (List UInt8)
  | 0, _, chunks => pure chunks.flatten
  | fuel + 1, position, chunks =>
    if maximumBytes < position then pure chunks.flatten
    else
      call (fun step => fs.read step handle (min fileReadChunkBytes (maximumBytes - position + 1))
        position) >>= fun bytes =>
        if bytes.isEmpty then pure chunks.flatten
        else if maximumBytes < position + bytes.length then Program.raise tooLarge
        else readLoop tooLarge handle maximumBytes fuel (position + bytes.length)
          (chunks ++ [bytes])

def readBoundedHandle (handle maximumBytes : Nat) (errorCode : String) (errorMessage : JsString)
    (initialSize : Nat) : Local (List UInt8) :=
  let tooLarge : LocalThrown := .input .invalid errorCode errorMessage
  if maximumBytes < initialSize then Program.raise tooLarge
  else readLoop fs tooLarge handle maximumBytes (maximumBytes + 1) 0 []

def readRegistry (absolute : List JsString) : Local (List UInt8) := do
  let handle ← call fun step => fs.openFile step absolute false
  let metadata ← call fun step => fs.handleStat step handle
  if !metadata.isFile then
    Program.raise (.input .invalid "registry_not_regular_file"
      (js "registry must be a regular file"))
  else
    readBoundedHandle fs handle maxRegistryBytes "registry_too_large"
      (js "registry exceeds 8 MiB") metadata.size

def aggregateTooLarge : LocalThrown :=
  .input .invalid "artifact_aggregate_too_large" (js "aggregate artifact bytes exceed 128 MiB")

/-- What `loadArtifacts` does with an open handle. -/
def readArtifact (canonicalBase canonicalTarget : List JsString) (relative : JsString)
    (handle aggregateBytes : Nat) : Local (List UInt8) := do
  let openedMetadata ← call fun step => fs.handleStat step handle
  if !openedMetadata.isFile then
    Program.raise (.input .invalid "artifact_not_regular_file"
      (js "artifact must be a regular file: " ++ relative))
  else do
    let stableTarget ← call fun step => fs.realpath step canonicalTarget
    let currentMetadata ← call fun step => fs.stat step stableTarget
    if stableTarget ≠ canonicalTarget ∨ !isPathInside canonicalBase stableTarget ∨
        openedMetadata.dev ≠ currentMetadata.dev ∨ openedMetadata.ino ≠ currentMetadata.ino then
      Program.raise (.input .invalid "unsafe_artifact_path"
        (js "artifact path changed while it was opened: " ++ relative))
    else if openedMetadata.size > maxTotalArtifactBytes - aggregateBytes then
      Program.raise aggregateTooLarge
    else do
      let bytes ← readBoundedHandle fs handle maxArtifactBytes "artifact_too_large"
        (js "artifact exceeds 64 MiB: " ++ relative) openedMetadata.size
      if bytes.length > maxTotalArtifactBytes - aggregateBytes then
        Program.raise aggregateTooLarge
      else pure bytes

/-- The body of the loop of `loadArtifacts`: the bytes, unless the path is skipped. -/
def loadArtifact (canonicalBase : List JsString) (relative : JsString) (aggregateBytes : Nat) :
    Local (Option (List UInt8)) :=
  let lexicalTarget := resolvePath canonicalBase relative
  if !isPathInside canonicalBase lexicalTarget then pure none
  else do
    match ← tryCall fun step => fs.realpath step lexicalTarget with
    | none => pure none
    | some canonicalTarget =>
      if !isPathInside canonicalBase canonicalTarget then
        Program.raise (.input .invalid "unsafe_artifact_path"
          (js "artifact path escapes the registry directory: " ++ relative))
      else do
        match ← tryCall fun step => fs.openFile step canonicalTarget true with
        | none => pure none
        | some handle =>
          some <$> readArtifact fs canonicalBase canonicalTarget relative handle aggregateBytes

/-- The loop of `loadArtifacts`. -/
def loadItems (canonicalBase : List JsString) :
    List Value → List JsString → Nat → List (JsString × Artifact) →
    Local (List (JsString × Artifact))
  | [], _, _, result => pure result
  | raw :: items, attempted, aggregateBytes, result =>
    match artifactPath raw with
    | none => loadItems canonicalBase items attempted aggregateBytes result
    | some relative =>
      if attempted.contains relative then
        loadItems canonicalBase items attempted aggregateBytes result
      else
        loadArtifact fs canonicalBase relative aggregateBytes >>= fun loaded =>
          match loaded with
          | none =>
            loadItems canonicalBase items (attempted ++ [relative]) aggregateBytes result
          | some bytes =>
            loadItems canonicalBase items (attempted ++ [relative])
              (aggregateBytes + bytes.length) (result ++ [(relative, .bytes bytes)])

def loadArtifacts (registry : Value) (baseDirectory : List JsString) :
    Local (List (JsString × Artifact)) :=
  match registryItems registry with
  | none => pure []
  | some items => do
    let canonicalBase ← call fun step => fs.realpath step baseDirectory
    loadItems fs canonicalBase items [] 0 []

end Reading

section Local
variable (rt : Runtime) (fs : FileSystem)

/-- `verifyLocal` once the text of the registry is there. -/
def verifyLocalRegistry (now : Option JsString) (absolute : List JsString) (raw : List UInt8) :
    Local ModeResult := do
  let registry ← Program.lift ((parseJsonStrict (rt.utf8Decode raw)).mapError .strictJson)
  Program.lift ((validateRegistryResourceBounds registry).mapError fun (code, message) =>
    LocalThrown.input .invalid code (js message))
  let artifacts ← loadArtifacts fs registry absolute.dropLast
  let result ← Program.lift ((verifyProofRegistry rt registry artifacts (pinnedTime now)).mapError
    fun | .typeError message => LocalThrown.error (js message))
  return withMode result .local

/-- The `try` block of `verifyLocal`. -/
def readAndVerify (registryPath : JsString) (now : Option JsString) : Local ModeResult := do
  let absolute := resolvePath fs.cwd registryPath
  let raw ← readRegistry fs absolute
  verifyLocalRegistry rt fs now absolute raw

/-- The `catch` block of `verifyLocal`. -/
def localFailure : LocalThrown → ModeResult
  | .input status code message => modeFailure .local status code message
  | .strictJson error => modeFailure .local .invalid (strictJsonCode error) (strictJsonMessage error)
  | .node error =>
    if isMissing error then
      modeFailure .local .unavailable "input_unavailable" (js "local input is unavailable")
    else modeFailure .local .unavailable "local_read_failed" error.message
  | .error message => modeFailure .local .unavailable "local_read_failed" message

def verifyLocal (registryPath : JsString) (now : Option JsString) : Program Nat Empty ModeResult :=
  (readAndVerify rt fs registryPath now).attempt fun thrown => pure (localFailure thrown)

end Local
end Concordia.Verify
