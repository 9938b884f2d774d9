import WinCommander.DiskAnalyzer.Walk

/-!
# Totals of a walk

What a walk has visited is a forest.  The totals of every folder, the children that are kept, the large
entries and the ids are those of the forest, whatever the walk had to leave out; and where it left
nothing out, the forest is all that was there.
-/

namespace DiskAnalyzer

section Forests

/-- What was visited in a folder, each entry with what was visited inside it. -/
inductive Forest where
  | nil
  | cons (node : DiskNode) (inside rest : Forest)

namespace Forest

/-- The weights of all files, by their sizes, and of all folders. -/
@[grind =] def sum (file : ℕ → ℕ) (folder : ℕ) : Forest → ℕ
  | nil => 0
  | cons node inside rest => (if node.isDir then folder + inside.sum file folder
      else file node.size) + rest.sum file folder

def bytes (f : Forest) : ℕ := f.sum id 0

def files (f : Forest) : ℕ := f.sum (fun _ => 1) 0

def folders (f : Forest) : ℕ := f.sum (fun _ => 0) 1

def roots : Forest → List DiskNode
  | nil => []
  | cons node _ rest => node :: rest.roots

/-- Every entry, a folder after what is in it. -/
def nodes : Forest → List DiskNode
  | nil => []
  | cons node inside rest => inside.nodes ++ node :: rest.nodes

/-- The children of the visited folders, put into a table. -/
def record : Forest → (String → Option (List DiskNode)) → String → Option (List DiskNode)
  | nil, table => table
  | cons node inside rest, table => rest.record (if node.isDir then
      Function.update (inside.record (Function.update table node.fullPath (some [])))
        node.fullPath (some (bySize inside.roots)) else table)

/-- The totals of every folder are those of what was visited inside it. -/
def Accounts : Forest → Prop
  | nil => True
  | cons node inside rest => (if node.isDir then node.size = min inside.bytes u64Max ∧
      node.fileCount = inside.files ∧ node.folderCount = inside.folders else inside = nil) ∧
    inside.Accounts ∧ rest.Accounts

end Forest

variable {Path Name : Type} (fs : Paths Path Name)

/-- A folder that is gone when its entries are to be read shows nothing. -/
def Opened.Shows : Opened → (Forest → Prop) → Forest → Prop
  | .listed _, entries, f => entries f
  | .closed _ true, _, f => f = .nil
  | _, _, _ => False

/-- A listing that is read in full, and the forest of all that is in it. -/
def Listing.Shows : Listing Name → Path → ℕ → Forest → Prop
  | .finish failed, _, _, f => failed = false ∧ f = .nil
  | .itself rest, dir, depth, f => rest.Shows dir depth f
  | .link _, _, _, _ => False
  | .file name size lastModified rest, dir, depth, f => ∃ node f', f = .cons node .nil f' ∧
      node.isDir = false ∧ node.name = fs.nameText name ∧
      node.fullPath = fs.pathText (fs.join dir name) ∧ node.size = size ∧
      node.lastModified = lastModified ∧ rest.Shows dir depth f'
  | .folder name opened inside rest, dir, depth, f => ∃ node inner f', f = .cons node inner f' ∧
      node.isDir = true ∧ node.fullPath = fs.pathText (fs.join dir name) ∧ depth + 1 ≤ maxDepth ∧
      opened.Shows (inside.Shows (fs.join dir name) (depth + 1)) inner ∧ rest.Shows dir depth f'

/-- The weights of all files and folders of a listing. -/
def Listing.sum (file : ℕ → ℕ) (folder : ℕ) : Listing Name → ℕ
  | .finish _ => 0
  | .itself rest => rest.sum file folder
  | .link rest => rest.sum file folder
  | .file _ size _ rest => file size + rest.sum file folder
  | .folder _ (.listed _) inside rest => folder + inside.sum file folder + rest.sum file folder
  | .folder _ _ _ rest => folder + rest.sum file folder

variable {fs}

/-- What shows a listing has its weights. -/
theorem Listing.Shows.sum_eq {listing : Listing Name} {dir : Path} {depth : ℕ} {f : Forest}
    (h : listing.Shows fs dir depth f) (file : ℕ → ℕ) (folder : ℕ) :
    f.sum file folder = listing.sum file folder := by
  induction listing generalizing dir depth f with
  | finish failed =>
    rw [h.2]
    rfl
  | itself rest ih => exact ih h
  | link rest _ => exact h.elim
  | file name size lastModified rest ih =>
    obtain ⟨node, f', rfl, hdir, -, -, hsize, -, hrest⟩ := h
    rw [Forest.sum, Listing.sum, if_neg (by simp [hdir]), hsize, ih hrest]
  | folder name opened inside rest ihInside ihRest =>
    obtain ⟨node, inner, f', rfl, hdir, -, -, hinside, hrest⟩ := h
    rw [Forest.sum, if_pos hdir, ihRest hrest]
    cases opened with
    | listed lastModified => rw [Listing.sum, ihInside hinside]
    | closed lastModified notFound =>
      cases notFound with
      | true =>
        rw [show inner = .nil from hinside]
        rfl
      | false => exact hinside.elim
    | link => exact hinside.elim
    | unreadable => exact hinside.elim

theorem Forest.totals_folder {node : DiskNode} {inside rest : Forest} (hdir : node.isDir = true) :
    (cons node inside rest).bytes = inside.bytes + rest.bytes ∧
      (cons node inside rest).files = inside.files + rest.files ∧
      (cons node inside rest).folders = inside.folders + 1 + rest.folders := by
  simp only [bytes, files, folders, sum, if_pos hdir, Nat.zero_add]
  exact ⟨trivial, trivial, by rw [Nat.add_comm 1]⟩

theorem Forest.totals_file {node : DiskNode} {inside rest : Forest} (hdir : node.isDir = false) :
    (cons node inside rest).bytes = node.size + rest.bytes ∧
      (cons node inside rest).files = 1 + rest.files ∧
      (cons node inside rest).folders = rest.folders := by
  simp only [bytes, files, folders, sum, hdir, Bool.false_eq_true, if_false, Nat.zero_add, id]
  exact ⟨trivial, trivial, trivial⟩

/-- Every entry is a file or a folder. -/
theorem Forest.length_nodes {f : Forest} (h : f.Accounts) :
    f.nodes.length = f.files + f.folders := by
  induction f with
  | nil => rfl
  | cons node inside rest ihInside ihRest =>
    obtain ⟨hnode, hinside, hrest⟩ := h
    have hfirst := ihInside hinside
    have hsecond := ihRest hrest
    rw [nodes, List.length_append, List.length_cons]
    cases hdir : node.isDir with
    | true =>
      have htotals := @totals_folder node inside rest hdir
      omega
    | false =>
      have htotals := @totals_file node inside rest hdir
      rw [if_neg (by simp [hdir])] at hnode
      have hempty : inside.nodes.length = 0 := by
        rw [hnode]
        rfl
      omega

end Forests

section Adding

/-- What a walk has added to the table, the list and the counters, where the ids are from `first` on. -/
structure Added (first : ℕ) (acc acc' : WalkAccum) (f : Forest) : Prop where
  limit : acc'.limit = acc.limit
  visited : acc.visited ≤ acc'.visited
  count : first + f.nodes.length ≤ acc'.visited + 1
  within : acc.visited ≤ acc.limit → acc'.visited ≤ acc.limit
  ids : (f.nodes.map DiskNode.entryId).Nodup
  range : ∀ n ∈ f.nodes, first ≤ n.entryId ∧ n.entryId ≤ acc'.visited
  large : acc'.large = acc.large ++
    (f.nodes.filter fun n => minLargeBytes ≤ n.size).map largeItem
  children : acc'.childrenByDir = f.record acc.childrenByDir
  skipped : acc.skippedEntries ≤ acc'.skippedEntries
  truncated : acc.truncated = true → acc'.truncated = true
  loads : acc.loads ≤ acc'.loads
  accounts : f.Accounts

variable {first : ℕ} {acc mid acc' : WalkAccum} {f inside : Forest} {node : DiskNode}

theorem Added.nil (hlimit : acc'.limit = acc.limit) (hvisited : acc.visited ≤ acc'.visited)
    (hwithin : acc.visited ≤ acc.limit → acc'.visited ≤ acc.limit) (hlarge : acc'.large = acc.large)
    (hchildren : acc'.childrenByDir = acc.childrenByDir)
    (hskipped : acc.skippedEntries ≤ acc'.skippedEntries)
    (htruncated : acc.truncated = true → acc'.truncated = true) (hloads : acc.loads ≤ acc'.loads) :
    Added (acc.visited + 1) acc acc' .nil where
  limit := hlimit
  visited := hvisited
  count := Nat.succ_le_succ hvisited
  within := hwithin
  ids := List.nodup_nil
  range _ hn := absurd hn List.not_mem_nil
  large := hlarge.trans (List.append_nil _).symm
  children := hchildren
  skipped := hskipped
  truncated := htruncated
  loads := hloads
  accounts := trivial

theorem added_load (acc : WalkAccum) : Added (acc.visited + 1) acc acc.load .nil :=
  .nil rfl (Nat.le_refl _) id rfl rfl (Nat.le_refl _) id (Nat.le_succ _)

theorem added_skip (acc : WalkAccum) (link : Bool) :
    Added (acc.visited + 1) acc (acc.skip link) .nil :=
  .nil rfl (Nat.le_refl _) id rfl rfl (Nat.le_succ _) id (Nat.le_refl _)

theorem added_truncate (acc : WalkAccum) : Added (acc.visited + 1) acc acc.truncate .nil :=
  .nil rfl (Nat.le_refl _) id rfl rfl (Nat.le_refl _) (fun _ => rfl) (Nat.le_refl _)

theorem added_visit (h : acc.visited < acc.limit) : Added (acc.visited + 1) acc acc.visit .nil :=
  .nil rfl (Nat.le_succ _) (fun _ => h) rfl rfl (Nat.le_refl _) id (Nat.le_refl _)

/-- What adds nothing comes first. -/
theorem Added.nil_trans (h : Added (acc.visited + 1) acc mid .nil)
    (h' : Added (mid.visited + 1) mid acc' f) : Added (acc.visited + 1) acc acc' f where
  limit := h'.limit.trans h.limit
  visited := h.visited.trans h'.visited
  count := by
    have hvisited := h.visited
    have hcount := h'.count
    omega
  within hacc := by
    have hmid := h.within hacc
    rw [← h.limit] at hmid ⊢
    exact h'.within hmid
  ids := h'.ids
  range n hn := by
    have hvisited := h.visited
    have hrange := h'.range n hn
    omega
  large := by
    rw [h'.large, h.large]
    simp [Forest.nodes]
  children := by
    rw [h'.children, h.children]
    rfl
  skipped := h.skipped.trans h'.skipped
  truncated := h'.truncated ∘ h.truncated
  loads := h.loads.trans h'.loads
  accounts := h'.accounts

/-- One entry with what is inside it, and then the entries after it. -/
theorem Added.cons {rest : Forest} (h : Added first acc mid (.cons node inside .nil))
    (h' : Added (mid.visited + 1) mid acc' rest) : Added first acc acc' (.cons node inside rest) := by
  have hnodes : (Forest.cons node inside rest).nodes =
      (Forest.cons node inside .nil).nodes ++ rest.nodes := by
    simp [Forest.nodes]
  exact {
    limit := h'.limit.trans h.limit
    visited := h.visited.trans h'.visited
    count := by
      have hcount := h.count
      have hcount' := h'.count
      rw [hnodes, List.length_append]
      omega
    within := fun hacc => by
      have hmid := h.within hacc
      rw [← h.limit] at hmid ⊢
      exact h'.within hmid
    ids := by
      rw [hnodes, List.map_append, List.nodup_append]
      refine ⟨h.ids, h'.ids, ?_⟩
      intro a ha b hb heq
      obtain ⟨n, hn, rfl⟩ := List.mem_map.mp ha
      obtain ⟨n', hn', rfl⟩ := List.mem_map.mp hb
      have hlow := (h.range n hn).2
      have hhigh := (h'.range n' hn').1
      omega
    range := fun n hn => by
      rw [hnodes] at hn
      rcases List.mem_append.mp hn with hmem | hmem
      · have hrange := h.range n hmem
        have hvisited := h'.visited
        omega
      · have hrange := h'.range n hmem
        have hcount := h.count
        omega
    large := by
      rw [h'.large, h.large, hnodes, List.filter_append, List.map_append, List.append_assoc]
    children := by
      rw [h'.children, h.children]
      rfl
    skipped := h.skipped.trans h'.skipped
    truncated := h'.truncated ∘ h.truncated
    loads := h.loads.trans h'.loads
    accounts := ⟨h.accounts.1, h.accounts.2.1, h'.accounts⟩ }

theorem large_addLarge (node : DiskNode) (acc : WalkAccum) :
    (addLarge node acc).large = acc.large ++
      ([node].filter fun n => minLargeBytes ≤ n.size).map largeItem := by
  unfold addLarge
  by_cases h : node.size < minLargeBytes
  · rw [if_pos h, List.filter_cons_of_neg (by simpa using h)]
    simp
  · rw [if_neg h, List.filter_cons_of_pos (by simpa using h)]
    simp

/-- Only the list is changed. -/
theorem addLarge_eq (node : DiskNode) (acc : WalkAccum) :
    addLarge node acc = { acc with large := (addLarge node acc).large } := by
  unfold addLarge
  split <;> rfl

/-- A file is one entry. -/
theorem added_file (hdir : node.isDir = false) (hid : node.entryId = acc.visited) :
    Added acc.visited acc (addLarge node acc) (.cons node .nil .nil) := by
  rw [addLarge_eq]
  exact {
    limit := rfl
    visited := Nat.le_refl _
    count := Nat.le_refl _
    within := id
    ids := List.nodup_singleton _
    range := by
      intro n hn
      rw [List.mem_singleton.mp hn, hid]
      exact ⟨Nat.le_refl _, Nat.le_refl _⟩
    large := large_addLarge node acc
    children := by
      rw [Forest.record, if_neg (by simp [hdir])]
      rfl
    skipped := Nat.le_refl _
    truncated := id
    loads := Nat.le_refl _
    accounts := ⟨by rw [if_neg (by simp [hdir])], trivial, trivial⟩ }

/-- A folder is one entry after what was added inside it. -/
theorem added_folder {fullPath : String} {children : List DiskNode} (hdir : node.isDir = true)
    (hpath : node.fullPath = fullPath) (hid : node.entryId = acc.visited)
    (h : Added (acc.visited + 1) (acc.keep fullPath []) mid inside)
    (hchildren : children = bySize inside.roots)
    (htotals : node.size = min inside.bytes u64Max ∧ node.fileCount = inside.files ∧
      node.folderCount = inside.folders) :
    Added acc.visited acc (addLarge node (mid.keep fullPath children)) (.cons node inside .nil) := by
  have hnodes : (Forest.cons node inside .nil).nodes = inside.nodes ++ [node] := rfl
  have hcount := h.count
  rw [addLarge_eq]
  exact {
    limit := h.limit
    visited := h.visited
    count := by
      rw [hnodes, List.length_append, List.length_singleton]
      show acc.visited + (inside.nodes.length + 1) ≤ mid.visited + 1
      omega
    within := h.within
    ids := by
      rw [hnodes, List.map_append, List.nodup_append]
      refine ⟨h.ids, List.nodup_singleton _, ?_⟩
      intro a ha b hb heq
      obtain ⟨n, hn, rfl⟩ := List.mem_map.mp ha
      rw [List.map_singleton, List.mem_singleton] at hb
      have hlow := (h.range n hn).1
      omega
    range := by
      intro n hn
      show acc.visited ≤ n.entryId ∧ n.entryId ≤ mid.visited
      rcases List.mem_append.mp hn with hmem | hmem
      · have hrange := h.range n hmem
        omega
      · rw [List.mem_singleton.mp hmem, hid]
        exact ⟨Nat.le_refl _, h.visited⟩
    large := by
      show (addLarge node (mid.keep fullPath children)).large = _
      rw [large_addLarge, hnodes, List.filter_append, List.map_append, ← List.append_assoc]
      exact congrArg (· ++ _) h.large
    children := by
      show Function.update mid.childrenByDir fullPath (some children) = _
      rw [h.children, Forest.record, if_pos hdir, hpath, hchildren]
      rfl
    skipped := h.skipped
    truncated := h.truncated
    loads := h.loads
    accounts := ⟨by rw [if_pos hdir]; exact htotals, h.accounts, trivial⟩ }

end Adding

section Walking

/-- What has been read of a folder after a forest was read of it. -/
structure Sums (g g' : Gathered) (f : Forest) : Prop where
  size : g'.size = min (g.size + f.bytes) u64Max
  fileCount : g'.fileCount = g.fileCount + f.files
  folderCount : g'.folderCount = g.folderCount + f.folders
  children : g'.children = g.children ++ f.roots

theorem Sums.nil {g : Gathered} (hsize : g.size ≤ u64Max) : Sums g g .nil where
  size := (min_eq_left hsize).symm
  fileCount := rfl
  folderCount := rfl
  children := (List.append_nil _).symm

theorem satAdd_min (a b : ℕ) : satAdd a (min b u64Max) = min (a + b) u64Max := by
  unfold satAdd
  omega

theorem satAdd_of_le {a b : ℕ} (h : a + b ≤ u64Max) : satAdd a b = a + b := min_eq_left h

/-- A file is added, and then what comes after it. -/
theorem Sums.addFile {g g' : Gathered} {node : DiskNode} {rest : Forest} (hdir : node.isDir = false)
    (h : Sums (g.addFile node) g' rest) : Sums g g' (.cons node .nil rest) := by
  have hadded : g.addFile node = ⟨min (g.size + node.size) u64Max, g.fileCount + 1, g.folderCount,
      g.children ++ [node]⟩ := rfl
  have htotals := @Forest.totals_file node .nil rest hdir
  rw [hadded] at h
  constructor
  · rw [h.size, htotals.1]
    dsimp only
    omega
  · rw [h.fileCount, htotals.2.1]
    dsimp only
    omega
  · rw [h.folderCount, htotals.2.2]
  · rw [h.children, Forest.roots, List.append_assoc]
    rfl

/-- A folder is added, and then what comes after it.  The counts do not reach the largest number. -/
theorem Sums.addFolder {g g' : Gathered} {node : DiskNode} {inside rest : Forest}
    (hdir : node.isDir = true) (hnode : node.size = min inside.bytes u64Max ∧
      node.fileCount = inside.files ∧ node.folderCount = inside.folders)
    (hfits : g.fileCount + g.folderCount + (inside.files + inside.folders) + 1 ≤ u64Max)
    (h : Sums (g.addFolder node) g' rest) : Sums g g' (.cons node inside rest) := by
  have hadded : g.addFolder node = ⟨min (g.size + inside.bytes) u64Max, g.fileCount + inside.files,
      g.folderCount + inside.folders + 1, g.children ++ [node]⟩ := by
    rw [Gathered.addFolder, hnode.1, hnode.2.1, hnode.2.2, satAdd_min,
      satAdd_of_le (by omega : g.fileCount + inside.files ≤ u64Max),
      satAdd_of_le (by omega : g.folderCount + inside.folders ≤ u64Max), satAdd_of_le (by omega)]
  have htotals := @Forest.totals_folder node inside rest hdir
  rw [hadded] at h
  constructor
  · rw [h.size, htotals.1]
    dsimp only
    omega
  · rw [h.fileCount, htotals.2.1]
    dsimp only
    omega
  · rw [h.folderCount, htotals.2.2]
    dsimp only
    omega
  · rw [h.children, Forest.roots, List.append_assoc]
    rfl

variable {Path Name : Type} (fs : Paths Path Name) (cancelled : ℕ → Bool)

/-- Nothing was left out between two states. -/
structure Whole (acc acc' : WalkAccum) : Prop where
  skipped : acc'.skippedEntries = acc.skippedEntries
  uncancelled : ∀ k, acc.loads ≤ k → k < acc'.loads → cancelled k = false

/-- What a walk over the entries of a folder makes of a state. -/
structure EntriesWalked (dir : Path) (depth : ℕ) (listing : Listing Name) (g : Gathered)
    (acc : WalkAccum) (result : Gathered × WalkAccum) (f : Forest) : Prop where
  added : Added (acc.visited + 1) acc result.2 f
  sums : Sums g result.1 f
  shows : Whole cancelled acc result.2 → listing.Shows fs dir depth f

/-- What a walk over a folder makes of a state. -/
structure FolderWalked (dir : Path) (depth : ℕ) (opened : Opened) (entries : Forest → Prop)
    (acc : WalkAccum) (result : DiskNode × WalkAccum) (inside : Forest) : Prop where
  added : Added acc.visited acc result.2 (.cons result.1 inside .nil)
  isDir : result.1.isDir = true
  fullPath : result.1.fullPath = fs.pathText dir
  shows : Whole cancelled acc result.2 → depth ≤ maxDepth ∧ opened.Shows entries inside

variable {fs cancelled} {dir : Path} {depth entryId : ℕ} {acc mid acc' : WalkAccum}
  {opened : Opened} {g : Gathered}

theorem Whole.left (h : Whole cancelled acc acc') (hskipped : acc.skippedEntries ≤ mid.skippedEntries)
    (hskipped' : mid.skippedEntries ≤ acc'.skippedEntries) (hloads : mid.loads ≤ acc'.loads) :
    Whole cancelled acc mid where
  skipped := by
    have hsame := h.skipped
    omega
  uncancelled k hlow hhigh := h.uncancelled k hlow (hhigh.trans_le hloads)

theorem Whole.right (h : Whole cancelled acc acc') (hskipped : acc.skippedEntries ≤ mid.skippedEntries)
    (hskipped' : mid.skippedEntries ≤ acc'.skippedEntries) (hloads : acc.loads ≤ mid.loads) :
    Whole cancelled mid acc' where
  skipped := by
    have hsame := h.skipped
    omega
  uncancelled k hlow hhigh := h.uncancelled k (hloads.trans hlow) hhigh

/-- A read of the flag that finds it set leaves something out. -/
theorem not_whole_of_cancelled (hcancelled : cancelled acc.loads = true) (hloads : acc.loads < acc'.loads) :
    ¬ Whole cancelled acc acc' := by
  intro h
  rw [h.uncancelled acc.loads (Nat.le_refl _) hloads] at hcancelled
  cases hcancelled

theorem not_whole_of_skipped (h : acc.skippedEntries < acc'.skippedEntries) :
    ¬ Whole cancelled acc acc' := by
  intro hwhole
  have hsame := hwhole.skipped
  omega

/-- A folder that is not read shows no entry. -/
theorem folder_unread {node : DiskNode} (hdir : node.isDir = true)
    (hpath : node.fullPath = fs.pathText dir) (hid : node.entryId = acc.visited)
    (hempty : node.size = 0 ∧ node.fileCount = 0 ∧ node.folderCount = 0)
    (h : Added (acc.visited + 1) (acc.keep (fs.pathText dir) []) mid .nil) :
    Added acc.visited acc mid (.cons node .nil .nil) := by
  have hmid : mid = addLarge node (mid.keep (fs.pathText dir) []) := by
    have hsmall : node.size < minLargeBytes := by
      rw [hempty.1]
      decide
    have htable : mid.childrenByDir = Function.update acc.childrenByDir (fs.pathText dir) (some []) :=
      h.children
    rw [addLarge, if_pos hsmall, WalkAccum.keep, htable, Function.update_idem, ← htable]
  rw [hmid]
  apply added_folder hdir hpath hid h (List.mergeSort_nil).symm
  rw [hempty.1, hempty.2.1, hempty.2.2]
  exact ⟨rfl, rfl, rfl⟩

theorem walkFolder_spec {entries : WalkAccum → Gathered × WalkAccum} {shown : Forest → Prop}
    (hid : entryId = acc.visited)
    (hentries : ∀ start : WalkAccum, start.visited = acc.visited → start.limit = acc.limit →
      ∃ f, Added (start.visited + 1) start (entries start).2 f ∧ Sums .none (entries start).1 f ∧
        (Whole cancelled start (entries start).2 → shown f)) :
    ∃ inside, FolderWalked fs cancelled dir depth opened shown acc
      (walkFolder fs cancelled dir depth entryId opened entries acc) inside := by
  have hopening := added_load (acc.keep (fs.pathText dir) [])
  have hskipping (link : Bool) := hopening.nil_trans (added_skip _ link)
  unfold walkFolder
  dsimp only
  by_cases hcancelled : cancelled acc.loads = true
  · rw [if_pos hcancelled]
    refine ⟨.nil, folder_unread rfl rfl hid ⟨rfl, rfl, rfl⟩ hopening, rfl, rfl, ?_⟩
    intro hwhole
    exact absurd hwhole (not_whole_of_cancelled hcancelled (Nat.lt_succ_self _))
  rw [if_neg hcancelled]
  by_cases hdepth : maxDepth < depth
  · rw [if_pos hdepth]
    have hdeep := hopening.nil_trans ((added_truncate _).nil_trans (added_skip _ false))
    refine ⟨.nil, folder_unread rfl rfl hid ⟨rfl, rfl, rfl⟩ hdeep, rfl, rfl, ?_⟩
    intro hwhole
    exact absurd hwhole (not_whole_of_skipped (Nat.lt_succ_self _))
  rw [if_neg hdepth]
  cases opened with
  | link =>
    refine ⟨.nil, folder_unread rfl rfl hid ⟨rfl, rfl, rfl⟩ (hskipping true), rfl, rfl, ?_⟩
    intro hwhole
    exact absurd hwhole (not_whole_of_skipped (Nat.lt_succ_self _))
  | unreadable =>
    refine ⟨.nil, folder_unread rfl rfl hid ⟨rfl, rfl, rfl⟩ (hskipping false), rfl, rfl, ?_⟩
    intro hwhole
    exact absurd hwhole (not_whole_of_skipped (Nat.lt_succ_self _))
  | closed lastModified notFound =>
    cases notFound with
    | true =>
      refine ⟨.nil, folder_unread rfl rfl hid ⟨rfl, rfl, rfl⟩ hopening, rfl, rfl, ?_⟩
      exact fun _ => ⟨Nat.not_lt.mp hdepth, rfl⟩
    | false =>
      refine ⟨.nil, folder_unread rfl rfl hid ⟨rfl, rfl, rfl⟩ (hskipping false), rfl, rfl, ?_⟩
      intro hwhole
      exact absurd hwhole (not_whole_of_skipped (Nat.lt_succ_self _))
  | listed lastModified =>
    dsimp only
    obtain ⟨f, hadded, hsums, hshown⟩ := hentries (acc.keep (fs.pathText dir) []).load rfl rfl
    have htotals := hsums.size
    rw [show Gathered.none.size = 0 from rfl, Nat.zero_add] at htotals
    refine ⟨f, ?_, rfl, rfl, ?_⟩
    · apply added_folder rfl rfl hid (hopening.nil_trans hadded)
      · rw [hsums.children]
        rfl
      · refine ⟨htotals, ?_, ?_⟩
        · exact hsums.fileCount.trans (Nat.zero_add _)
        · exact hsums.folderCount.trans (Nat.zero_add _)
    · intro hwhole
      refine ⟨Nat.not_lt.mp hdepth, hshown ?_⟩
      rw [addLarge_eq] at hwhole
      exact ⟨hwhole.skipped, fun k hlow hhigh => hwhole.uncancelled k (Nat.le_of_succ_le hlow) hhigh⟩

/-- Where the flag is set, the walk ends. -/
theorem EntriesWalked.stopped {listing : Listing Name} (hsize : g.size ≤ u64Max)
    (h : cancelled acc.loads = true) :
    EntriesWalked fs cancelled dir depth listing g acc (g, acc.load) .nil where
  added := added_load acc
  sums := .nil hsize
  shows hwhole := absurd hwhole (not_whole_of_cancelled h (Nat.lt_succ_self _))

/-- Where the limit is reached, the walk leaves out what comes. -/
theorem EntriesWalked.full {listing : Listing Name} (hsize : g.size ≤ u64Max) :
    EntriesWalked fs cancelled dir depth listing g acc (g, acc.load.truncate.skip false) .nil where
  added := (added_load acc).nil_trans ((added_truncate _).nil_trans (added_skip _ false))
  sums := .nil hsize
  shows hwhole := absurd hwhole (not_whole_of_skipped (Nat.lt_succ_self _))

/-- An entry is counted before it is looked at. -/
theorem Added.entered {f : Forest} (hroom : acc.visited < acc.limit)
    (h : Added (acc.visited + 1) acc.load.visit acc' f) : Added (acc.visited + 1) acc acc' f where
  limit := h.limit
  visited := (Nat.le_succ _).trans h.visited
  count := h.count
  within _ := h.within hroom
  ids := h.ids
  range := h.range
  large := h.large
  children := h.children
  skipped := h.skipped
  truncated := h.truncated
  loads := (Nat.le_succ _).trans h.loads
  accounts := h.accounts

/-- The walk over the entries of a folder. -/
theorem walkEntries_spec (listing : Listing Name) (hlimit : acc.limit ≤ u64Max)
    (hvisited : acc.visited ≤ acc.limit) (hsize : g.size ≤ u64Max)
    (hcounts : g.fileCount + g.folderCount ≤ acc.visited) :
    ∃ f, EntriesWalked fs cancelled dir depth listing g acc
      (walkEntries fs cancelled dir depth listing g acc) f := by
  induction listing generalizing dir depth g acc with
  | finish failed =>
    refine ⟨.nil, ?_, .nil hsize, ?_⟩
    · rw [walkEntries]
      cases failed with
      | true => exact added_skip _ _
      | false => exact .nil rfl (Nat.le_refl _) id rfl rfl (Nat.le_refl _) id (Nat.le_refl _)
    · cases failed with
      | true => exact fun hwhole => absurd hwhole (not_whole_of_skipped (Nat.lt_succ_self _))
      | false => exact fun _ => ⟨rfl, rfl⟩
  | itself rest ih =>
    rw [walkEntries]
    by_cases hcancelled : cancelled acc.loads = true
    · rw [if_pos hcancelled]
      exact ⟨.nil, .stopped hsize hcancelled⟩
    rw [if_neg hcancelled]
    obtain ⟨f, h⟩ := @ih dir depth acc.load g hlimit hvisited hsize hcounts
    refine ⟨f, (added_load acc).nil_trans h.added, h.sums, fun hwhole => h.shows ?_⟩
    exact hwhole.right (Nat.le_refl _) h.added.skipped (Nat.le_succ _)
  | link rest ih =>
    rw [walkEntries]
    by_cases hcancelled : cancelled acc.loads = true
    · rw [if_pos hcancelled]
      exact ⟨.nil, .stopped hsize hcancelled⟩
    rw [if_neg hcancelled]
    by_cases hfull : acc.limit ≤ acc.visited
    · rw [if_pos hfull]
      exact ⟨.nil, .full hsize⟩
    rw [if_neg hfull]
    have hroom := Nat.not_le.mp hfull
    obtain ⟨f, h⟩ := @ih dir depth (acc.load.visit.skip true) g hlimit hroom hsize
      (hcounts.trans (Nat.le_succ _))
    have hvisit : Added (acc.load.visited + 1) acc.load acc.load.visit .nil := added_visit hroom
    refine ⟨f, (added_load acc).nil_trans (hvisit.nil_trans ((added_skip _ true).nil_trans h.added)),
      h.sums, ?_⟩
    intro hwhole
    exact absurd hwhole (not_whole_of_skipped ((Nat.lt_succ_self _).trans_le h.added.skipped))
  | file name size lastModified rest ih =>
    rw [walkEntries]
    by_cases hcancelled : cancelled acc.loads = true
    · rw [if_pos hcancelled]
      exact ⟨.nil, .stopped hsize hcancelled⟩
    rw [if_neg hcancelled]
    by_cases hfull : acc.limit ≤ acc.visited
    · rw [if_pos hfull]
      exact ⟨.nil, .full hsize⟩
    rw [if_neg hfull]
    have hroom := Nat.not_le.mp hfull
    dsimp only
    generalize hchild : (⟨acc.visited + 1, fs.nameText name, fs.pathText (fs.join dir name), size, false,
      lastModified, 0, 0⟩ : DiskNode) = child
    have hdir : child.isDir = false := by rw [← hchild]
    have hid : child.entryId = acc.load.visit.visited := by
      rw [← hchild]
      rfl
    have hfile : Added (acc.visited + 1) acc (addLarge child acc.load.visit) (.cons child .nil .nil) :=
      (added_file hdir hid).entered hroom
    obtain ⟨f, h⟩ := @ih dir depth (addLarge child acc.load.visit) (g.addFile child)
      (hfile.limit ▸ hlimit) (by rw [hfile.limit]; exact hfile.within hvisited) (Nat.min_le_right _ _)
      (by
        rw [addLarge_eq]
        show g.fileCount + 1 + g.folderCount ≤ acc.visited + 1
        omega)
    refine ⟨.cons child .nil f, hfile.cons h.added, h.sums.addFile hdir, fun hwhole => ?_⟩
    have hrest := h.shows (hwhole.right hfile.skipped h.added.skipped hfile.loads)
    refine ⟨child, f, rfl, hdir, ?_, ?_, ?_, ?_, hrest⟩ <;> rw [← hchild]
  | folder name opened inside rest ihInside ihRest =>
    rw [walkEntries]
    by_cases hcancelled : cancelled acc.loads = true
    · rw [if_pos hcancelled]
      exact ⟨.nil, .stopped hsize hcancelled⟩
    rw [if_neg hcancelled]
    by_cases hfull : acc.limit ≤ acc.visited
    · rw [if_pos hfull]
      exact ⟨.nil, .full hsize⟩
    rw [if_neg hfull]
    have hroom := Nat.not_le.mp hfull
    obtain ⟨inner, hfolder⟩ := @walkFolder_spec Path Name fs cancelled (fs.join dir name) (depth + 1)
      (acc.visited + 1) acc.load.visit opened
      (walkEntries fs cancelled (fs.join dir name) (depth + 1) inside .none)
      (inside.Shows fs (fs.join dir name) (depth + 1)) rfl (by
        intro start hstart hstartLimit
        obtain ⟨f, h⟩ := @ihInside (fs.join dir name) (depth + 1) start .none (hstartLimit ▸ hlimit)
          (by rw [hstart, hstartLimit]; exact hroom) (Nat.zero_le _) (Nat.zero_le _)
        exact ⟨f, h.added, h.sums, h.shows⟩)
    dsimp only
    generalize walkFolder fs cancelled (fs.join dir name) (depth + 1) (acc.visited + 1) opened
      (walkEntries fs cancelled (fs.join dir name) (depth + 1) inside .none) acc.load.visit = walked
      at hfolder ⊢
    have hadded : Added (acc.visited + 1) acc walked.2 (.cons walked.1 inner .nil) :=
      hfolder.added.entered hroom
    have htotals := hadded.accounts.1
    rw [if_pos hfolder.isDir] at htotals
    have hlength := Forest.length_nodes hadded.accounts.2.1
    have hcount := hadded.count
    rw [Forest.nodes, List.length_append, List.length_cons] at hcount
    have hwithin := hadded.within hvisited
    have hfits : g.fileCount + g.folderCount + (inner.files + inner.folders) + 1 ≤ walked.2.visited := by
      omega
    obtain ⟨f, h⟩ := @ihRest dir depth walked.2 (g.addFolder walked.1) (hadded.limit ▸ hlimit)
      (hadded.limit ▸ hwithin) (Nat.min_le_right _ _) (by
        have hfiles : (g.addFolder walked.1).fileCount ≤ g.fileCount + inner.files := by
          rw [← htotals.2.1]
          exact Nat.min_le_left _ _
        have hfolders : (g.addFolder walked.1).folderCount ≤ g.folderCount + inner.folders + 1 := by
          rw [← htotals.2.2]
          exact (Nat.min_le_left _ _).trans (Nat.succ_le_succ (Nat.min_le_left _ _))
        omega)
    refine ⟨.cons walked.1 inner f, hadded.cons h.added,
      h.sums.addFolder hfolder.isDir htotals (by omega), fun hwhole => ?_⟩
    have hinside : Whole cancelled acc.load.visit walked.2 :=
      (hwhole.left hadded.skipped h.added.skipped h.added.loads).right (Nat.le_refl _)
        hfolder.added.skipped (Nat.le_succ _)
    have hrest := h.shows (hwhole.right hadded.skipped h.added.skipped hadded.loads)
    have hshows := hfolder.shows hinside
    exact ⟨walked.1, inner, f, rfl, hfolder.isDir, hfolder.fullPath, hshows.1, hshows.2, hrest⟩

end Walking

end DiskAnalyzer
