/-!
What can go wrong with files.

The operating system gives each of its refusals a number; messages show its text and the number.
-/

namespace ApiSurface

/-- A refusal of the operating system. -/
inductive OsError
  | notFound
  | busy
  | alreadyExists
  | notFolder
  | isFolder
  | invalidArgument
  | nameTooLong
  | tooManyLinks
  deriving DecidableEq, Repr

namespace OsError

def number : OsError → Nat
  | .notFound => 2
  | .busy => 16
  | .alreadyExists => 17
  | .notFolder => 20
  | .isFolder => 21
  | .invalidArgument => 22
  | .nameTooLong => 36
  | .tooManyLinks => 40

def text : OsError → String
  | .notFound => "No such file or directory"
  | .busy => "Device or resource busy"
  | .alreadyExists => "File exists"
  | .notFolder => "Not a directory"
  | .isFolder => "Is a directory"
  | .invalidArgument => "Invalid argument"
  | .nameTooLong => "File name too long"
  | .tooManyLinks => "Too many levels of symbolic links"

def message (e : OsError) : String :=
  s!"{e.text} (os error {e.number})"

end OsError

/-- Why an archive, or an entry of one, cannot be read. -/
inductive ArchiveError
  /-- The bytes are no archive, or their directory cannot be followed. -/
  | notAnArchive
  /-- The entry is encrypted or packed in a way that is not known. -/
  | unsupportedEntry
  | noSuchEntry
  /-- Where an entry should start is none. -/
  | badEntry
  /-- The packed data breaks the rules of its format. -/
  | badData
  /-- The data is not what the archive was made from. -/
  | badChecksum
  deriving DecidableEq, Repr

def ArchiveError.message : ArchiveError → String
  | .notAnArchive => "archive error: not an archive"
  | .unsupportedEntry => "archive error: unsupported entry"
  | .noSuchEntry => "archive error: no such entry"
  | .badEntry => "archive error: no entry where one is due"
  | .badData => "archive error: bad compressed data"
  | .badChecksum => "archive error: bad checksum"

/-- Why reading or writing failed. -/
inductive IoError
  | os (e : OsError)
  | archive (e : ArchiveError)
  /-- A path with a character that ends paths. -/
  | nulInPath
  /-- Text was due and the bytes are not UTF-8. -/
  | notText
  /-- A refusal of something other than files, in its own words. -/
  | other (text : String)
  deriving DecidableEq, Repr

def IoError.message : IoError → String
  | .os e => e.message
  | .archive e => e.message
  | .nulInPath => "file name contained an unexpected NUL byte"
  | .notText => "stream did not contain valid UTF-8"
  | .other text => text

end ApiSurface
