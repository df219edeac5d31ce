import Challenger1P.Journal
import Challenger1P.Memory.Map
import Challenger1P.Rom.Image

/-!
# Loading ROM images

All images are fetched before any is put into memory, each by a worker of its own. The workers are
collected in the order of the images, up to the first that failed; that failure is the answer, and
memory stays as it was. A worker that crashed counts as failed when it is collected. One that
crashed and is not collected, because an image before it failed, brings the loader down with it.
-/

namespace Challenger1P.Rom

/-- What comes of asking a source for a name. -/
inductive Fetched where
  | bytes (contents : List UInt8)
  | failed (reason : ReadFailure)
  | crashed

/-- Where images come from. -/
abbrev Source := String → Fetched

/-- The files of a directory. -/
def Source.directory (read : FileReader) (directory : String) : Source := fun name =>
  match read (joinPath directory name) with
  | .ok contents => .bytes contents
  | .error reason => .failed reason

/-- A shelf of named images. -/
def Source.shelf (entries : List (String × Fetched)) : Source := fun name =>
  (entries.lookup name).getD (.failed .notOnShelf)

inductive Failure where
  | refused (error : LoadError)
  /-- A worker crashed and was never collected. -/
  | uncollectedCrash
  deriving DecidableEq, Repr

def Failure.message : Failure → String
  | .refused error => error.message
  | .uncollectedCrash => "a ROM worker crashed"

/-- What an image's worker comes back with. -/
def Image.obtain (image : Image) (source : Source) : Except LoadError (List UInt8) :=
  match source image.name with
  | .bytes raw => image.cut raw
  | .failed reason => .error (.unreadable image.name reason)
  | .crashed => .error (.crashed image.name)

def Image.crashes (source : Source) (image : Image) : Bool :=
  match source image.name with
  | .crashed => true
  | _ => false

def obtainAll (source : Source) : List Image → Except Failure (List (List UInt8))
  | [] => .ok []
  | image :: rest =>
    match image.obtain source with
    | .ok block => (block :: ·) <$> obtainAll source rest
    | .error error =>
      if rest.any (Image.crashes source) then .error .uncollectedCrash else .error (.refused error)

variable {δ : Type}

/-- Put blocks into memory at the addresses of their images, in order. -/
def installAll (memory : MemoryMap δ) (blocks : List (Image × List UInt8)) : MemoryMap δ :=
  blocks.foldl (fun memory (image, block) => memory.install image.address block) memory

/-- Fetch all images and put them into memory. -/
def populate (memory : MemoryMap δ) (source : Source) (images : List Image) :
    Except Failure (MemoryMap δ) :=
  (obtainAll source images).map fun blocks => installAll memory (images.zip blocks)

/-- What putting one block into memory reports. -/
def installRecords (image : Image) (block : List UInt8) : List Record :=
  let place := s!"({prefixedHex block.length} bytes) at ${wordHex image.address}"
  ⟨.debug, s!"installing {image.name} {place}"⟩ :: MemoryMap.installRecords image.address block

/-- What loading images reports. -/
def populateRecords (source : Source) (images : List Image) : List Record :=
  match obtainAll source images with
  | .ok blocks => (images.zip blocks).flatMap fun (image, block) => installRecords image block
  | .error _ => []

end Challenger1P.Rom
