import CoverageAccess.Fault
import CoverageAccess.Text.Split
/-!
# Response formats

A `Format` is an encoding in which the backend can send a subset of a coverage. Clients name it by
its short name or by its media type, in any case. The backend picks the encoding by the suffix of
the dataset URL (`Format.accessUrl`).
-/

namespace CoverageAccess

/-- An encoding of the answer. -/
inductive Format where
  | netcdf
  | geotiff
  | jpeg2000
  | dap2
  deriving DecidableEq, Repr

namespace Format

/-- All formats, in the order in which they are listed to clients. -/
def all : List Format := [netcdf, geotiff, jpeg2000, dap2]

def name : Format → String
  | netcdf => "netcdf"
  | geotiff => "geotiff"
  | jpeg2000 => "jpeg2000"
  | dap2 => "dap2"

def mediaType : Format → String
  | netcdf => "application/x-netcdf"
  | geotiff => "image/tiff"
  | jpeg2000 => "image/jp2"
  | dap2 => "application/octet-stream"

def urlSuffix : Format → String
  | netcdf => "nc"
  | geotiff => "tiff"
  | jpeg2000 => "gmljp2"
  | dap2 => "dods"

def fileExtension : Format → String
  | netcdf => "nc"
  | geotiff => "tif"
  | jpeg2000 => "jp2"
  | dap2 => "dods"

/-- The text is the name or the media type of the format, in any case of its ASCII letters. -/
def isCalled (f : Format) (s : String) : Bool :=
  Text.lower s == f.name || Text.lower s == f.mediaType

def ofText? (s : String) : Option Format :=
  all.find? fun f => f.isCalled (Text.trim s)

/-- The fault of a text that names no format. -/
def unknown (s : String) : Fault :=
  let known := Text.join ", " (all.map mediaType)
  .invalid "format" s!"Unsupported format '{Text.trim s}'. Supported formats are: {known}"

def ofText (s : String) : Except Fault Format :=
  match ofText? s with
  | some f => .ok f
  | none => .error (unknown s)

def isFileCharacter (c : Char) : Bool :=
  c.isAlphanum || c == '-' || c == '_' || c == '.'

def fileName (f : Format) (coverage : String) : String :=
  let stem := String.ofList (coverage.toList.map fun c => if isFileCharacter c then c else '_')
  s!"{stem}.{f.fileExtension}"

def disposition (f : Format) (coverage : String) : String :=
  s!"attachment; filename=\"{f.fileName coverage}\""

/-- The URL of a dataset in this encoding, restricted by a constraint unless that is empty. -/
def accessUrl (f : Format) (dataset constraint : String) : String :=
  let url := s!"{dataset}.{f.urlSuffix}"
  if constraint = "" then url else s!"{url}?{constraint}"

/-- Every format is found by its own name and by its own media type. -/
theorem ofText?_name (f : Format) : ofText? f.name = some f ∧ ofText? f.mediaType = some f := by
  cases f <;> decide

end Format

end CoverageAccess
