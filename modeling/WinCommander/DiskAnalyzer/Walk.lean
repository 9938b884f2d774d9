import Mathlib
import WinCommander.Library.AsciiText

/-!
# The walk over a disk

A folder is read entry by entry, and each folder in it when it is come to.  Links are not followed.
The walk keeps the children of every folder, a list of what is large, and a count of what it had to
leave out.
-/

namespace DiskAnalyzer

section Data

structure DiskNode where
  entryId : ℕ
  name : String
  fullPath : String
  size : ℕ
  isDir : Bool
  lastModified : String
  fileCount : ℕ
  folderCount : ℕ
  deriving DecidableEq

structure LargeDiskItem where
  node : DiskNode
  itemType : String
  cleanupHint : String
  risk : String
  deriving DecidableEq

def minLargeBytes : ℕ := 16 * 1024 * 1024

def maxEntries : ℕ := 2000000

def maxDepth : ℕ := 128

def u64Max : ℕ := 2 ^ 64 - 1

def satAdd (a b : ℕ) : ℕ := min (a + b) u64Max

/-- Paths and their parts, with the texts that they are shown as. -/
structure Paths (Path Name : Type) where
  join : Path → Name → Path
  fileName : Path → Option Name
  pathText : Path → String
  nameText : Name → String

/-- How a folder is found when the walk comes to it, and its time of change. -/
inductive Opened where
  | link
  | unreadable
  | closed (lastModified : String) (notFound : Bool)
  | listed (lastModified : String)
  deriving DecidableEq

/-- What reading a folder gives: its entries, and whether the reading failed at the end.  An entry for
a folder carries what reading that folder gives. -/
inductive Listing (Name : Type) where
  | finish (failed : Bool)
  | itself (rest : Listing Name)
  | link (rest : Listing Name)
  | file (name : Name) (size : ℕ) (lastModified : String) (rest : Listing Name)
  | folder (name : Name) (opened : Opened) (inside rest : Listing Name)

/-- `loads` is how often the flag of a cancelled scan has been read. -/
structure WalkAccum where
  childrenByDir : String → Option (List DiskNode)
  large : List LargeDiskItem
  skippedEntries : ℕ
  skippedLinks : ℕ
  truncated : Bool
  visited : ℕ
  limit : ℕ
  loads : ℕ

def WalkAccum.start : WalkAccum := ⟨fun _ => none, [], 0, 0, false, 0, maxEntries, 0⟩

end Data

section Texts

def hasPart (text part : String) : Bool := decide (part.toList <:+: text.toList)

def hasEnd (text part : String) : Bool := decide (part.toList <:+ text.toList)

/-- What follows the last dot, or the whole name. -/
def extension (name : String) : String :=
  String.ofList ((AsciiText.lower name).toList.reverse.takeWhile (· ≠ '.')).reverse

def classifyFile (name : String) : String :=
  let ext := extension name
  if ext ∈ ["mp4", "mkv", "mov", "avi", "wmv", "webm", "m4v"] then "Video"
  else if ext ∈ ["jpg", "jpeg", "png", "gif", "bmp", "tiff", "webp", "heic"] then "Image"
  else if ext ∈ ["mp3", "wav", "flac", "m4a", "ogg", "aac"] then "Audio"
  else if ext ∈ ["zip", "rar", "7z", "tar", "gz", "cab"] then "Archive"
  else if ext ∈ ["exe", "msi", "appx", "msix"] then "Installer"
  else if ext = "iso" then "Disk image"
  else if ext ∈ ["vhd", "vhdx", "vmdk"] then "Virtual disk"
  else if ext ∈ ["log", "tmp", "bak", "old"] then "Temp / log"
  else if ext ∈ ["pdf", "doc", "docx", "xls", "xlsx", "ppt", "pptx", "txt", "md"] then "Document"
  else "File"

def cleanupHint (name path : String) (isDir : Bool) : String :=
  let lowerName := AsciiText.lower name
  let lowerPath := AsciiText.lower path
  if isDir then
    if hasPart lowerPath "\\temp" ∨ hasPart lowerPath "/temp" then
      "Temporary folder — close applications and review its contents."
    else if hasPart lowerPath "appdata\\local\\temp" then
      "User Temp folder — clear when programs are closed."
    else if lowerName ∈ ["node_modules", "target", "dist"] then
      "Possible project artifacts — verify the project and build configuration before removal."
    else "Folder — review before deleting."
  else if hasEnd lowerName ".log" ∨ hasEnd lowerName ".tmp" ∨ hasEnd lowerName ".bak" then
    "Log, temporary or backup file — may contain diagnostics or recoverable work; review before removal."
  else if hasEnd lowerName ".iso" ∨ hasEnd lowerName ".vhd" ∨ hasEnd lowerName ".vhdx" then
    "Disk image — keep if you still need it."
  else "Inspect before deleting."

def riskFor (path : String) : String :=
  let lower := AsciiText.lower path
  if hasPart lower "\\windows\\" ∨ hasPart lower "/windows/" ∨ hasPart lower "\\program files" then
    "high"
  else "medium"

def largeItem (node : DiskNode) : LargeDiskItem :=
  ⟨node, if node.isDir then "Folder" else classifyFile node.name,
    cleanupHint node.name node.fullPath node.isDir, riskFor node.fullPath⟩

end Texts

section Walk

namespace WalkAccum

def skip (acc : WalkAccum) (link : Bool) : WalkAccum :=
  { acc with
    skippedEntries := acc.skippedEntries + 1
    skippedLinks := acc.skippedLinks + link.toNat }

def load (acc : WalkAccum) : WalkAccum := { acc with loads := acc.loads + 1 }

def visit (acc : WalkAccum) : WalkAccum := { acc with visited := acc.visited + 1 }

def truncate (acc : WalkAccum) : WalkAccum := { acc with truncated := true }

def keep (acc : WalkAccum) (path : String) (children : List DiskNode) : WalkAccum :=
  { acc with childrenByDir := Function.update acc.childrenByDir path (some children) }

end WalkAccum

def addLarge (node : DiskNode) (acc : WalkAccum) : WalkAccum :=
  if node.size < minLargeBytes then acc else { acc with large := acc.large ++ [largeItem node] }

/-- What has been read of a folder so far. -/
structure Gathered where
  size : ℕ
  fileCount : ℕ
  folderCount : ℕ
  children : List DiskNode

def Gathered.none : Gathered := ⟨0, 0, 0, []⟩

def Gathered.addFile (g : Gathered) (child : DiskNode) : Gathered :=
  ⟨satAdd g.size child.size, g.fileCount + 1, g.folderCount, g.children ++ [child]⟩

def Gathered.addFolder (g : Gathered) (child : DiskNode) : Gathered :=
  ⟨satAdd g.size child.size, satAdd g.fileCount child.fileCount,
    satAdd (satAdd g.folderCount child.folderCount) 1, g.children ++ [child]⟩

/-- The largest first; of one size the one that was read first. -/
def bySize (nodes : List DiskNode) : List DiskNode := nodes.mergeSort fun a b => b.size ≤ a.size

variable {Path Name : Type} (fs : Paths Path Name) (cancelled : ℕ → Bool)

/-- A folder, whose entries are read by `entries`. -/
def walkFolder (dir : Path) (depth entryId : ℕ) (opened : Opened)
    (entries : WalkAccum → Gathered × WalkAccum) (acc : WalkAccum) : DiskNode × WalkAccum :=
  let fullPath := fs.pathText dir
  let node : DiskNode := ⟨entryId, (fs.fileName dir).elim fullPath fs.nameText, fullPath, 0, true,
    "", 0, 0⟩
  let opening := (acc.keep fullPath []).load
  if cancelled acc.loads then (node, opening)
  else if maxDepth < depth then (node, opening.truncate.skip false)
  else
    match opened with
    | .link => (node, opening.skip true)
    | .unreadable => (node, opening.skip false)
    | .closed lastModified notFound =>
      ({ node with lastModified }, if notFound then opening else opening.skip false)
    | .listed lastModified =>
      let (g, acc) := entries opening
      let node : DiskNode := { node with
        lastModified
        size := g.size
        fileCount := g.fileCount
        folderCount := g.folderCount }
      (node, addLarge node (acc.keep fullPath (bySize g.children)))

/-- The flag is read before each entry, and each entry but the folder itself and its parent counts
towards the limit. -/
def walkEntries (dir : Path) (depth : ℕ) : Listing Name → Gathered → WalkAccum → Gathered × WalkAccum
  | .finish failed, g, acc => (g, if failed then acc.skip false else acc)
  | .itself rest, g, acc =>
    if cancelled acc.loads then (g, acc.load) else walkEntries dir depth rest g acc.load
  | .link rest, g, acc =>
    if cancelled acc.loads then (g, acc.load)
    else if acc.limit ≤ acc.visited then (g, acc.load.truncate.skip false)
    else walkEntries dir depth rest g (acc.load.visit.skip true)
  | .file name size lastModified rest, g, acc =>
    if cancelled acc.loads then (g, acc.load)
    else if acc.limit ≤ acc.visited then (g, acc.load.truncate.skip false)
    else
      let child : DiskNode := ⟨acc.visited + 1, fs.nameText name, fs.pathText (fs.join dir name), size,
        false, lastModified, 0, 0⟩
      walkEntries dir depth rest (g.addFile child) (addLarge child acc.load.visit)
  | .folder name opened inside rest, g, acc =>
    if cancelled acc.loads then (g, acc.load)
    else if acc.limit ≤ acc.visited then (g, acc.load.truncate.skip false)
    else
      let path := fs.join dir name
      let walked := walkFolder fs cancelled path (depth + 1) (acc.visited + 1) opened
        (walkEntries path (depth + 1) inside .none) acc.load.visit
      walkEntries dir depth rest (g.addFolder walked.1) walked.2

def walkDir (dir : Path) (depth entryId : ℕ) (opened : Opened) (inside : Listing Name)
    (acc : WalkAccum) : DiskNode × WalkAccum :=
  walkFolder fs cancelled dir depth entryId opened
    (walkEntries fs cancelled dir depth inside .none) acc

end Walk

section Scan

/-- What a scan reports of itself. -/
structure ScanMeta where
  totalSize : ℕ
  fileCount : ℕ
  folderCount : ℕ
  complete : Bool
  skippedEntries : ℕ
  skippedLinks : ℕ
  truncated : Bool
  cancelled : Bool
  deriving DecidableEq

structure ScanCache where
  children : String → Option (List DiskNode)
  largeItems : List LargeDiskItem
  meta' : ScanMeta

structure LargeDiskResult where
  items : List LargeDiskItem
  matchedCount : ℕ
  matchedSize : ℕ
  resultLimit : ℕ
  limited : Bool
  minimumSize : ℕ

variable {Path Name : Type} (fs : Paths Path Name) (cancelled : ℕ → Bool)

/-- The flag is read twice more for the report. -/
def runDiskScan (root : Path) (opened : Opened) (inside : Listing Name) : ScanCache :=
  let (node, acc) := walkDir fs cancelled root 0 0 opened inside .start
  { children := acc.childrenByDir
    largeItems := acc.large.mergeSort fun a b => b.node.size ≤ a.node.size
    meta' := {
      totalSize := node.size
      fileCount := node.fileCount
      folderCount := node.folderCount
      complete := acc.skippedEntries = 0 && !acc.truncated && !cancelled acc.loads
      skippedEntries := acc.skippedEntries
      skippedLinks := acc.skippedLinks
      truncated := acc.truncated
      cancelled := cancelled (acc.loads + 1) } }

def getDiskChildren (cache : ScanCache) (path : String) : Except String (List DiskNode) :=
  match cache.children path with
  | some children => .ok children
  | none => .error "No scan data. Run a scan first."

def thresholdResult (items : List LargeDiskItem) (minimum limit : ℕ) (includeDirs : Bool) :
    LargeDiskResult :=
  let matches' := items.filter fun item =>
    decide (minimum ≤ item.node.size) && (includeDirs || !item.node.isDir)
  { items := matches'.take limit
    matchedCount := matches'.length
    matchedSize := matches'.foldl (fun sum item => satAdd sum item.node.size) 0
    resultLimit := limit
    limited := limit < matches'.length
    minimumSize := minimum }

def getLargeDiskItems (cache : ScanCache) (minSizeBytes limit : Option ℕ)
    (includeDirs : Option Bool) : Except String LargeDiskResult :=
  let minimum := minSizeBytes.getD minLargeBytes
  if minimum < minLargeBytes then
    .error "Minimum size must be at least 16 MiB. Smaller files are not retained by the scan."
  else .ok (thresholdResult cache.largeItems minimum (max 1 (min (limit.getD 5000) 5000))
    (includeDirs.getD false))

end Scan

end DiskAnalyzer
