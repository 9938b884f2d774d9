import WinCommander.DiskAnalyzer.Totals

/-!
# Reports of a scan

A scan reports the totals of what it has visited, also where it left something out.  It calls itself
complete exactly where it left nothing out.
-/

namespace DiskAnalyzer

section Tables

namespace Forest

/-- The folders, each with what was visited inside it. -/
def subfolders : Forest → List (DiskNode × Forest)
  | nil => []
  | cons node inside rest =>
    (if node.isDir then (node, inside) :: inside.subfolders else []) ++ rest.subfolders

/-- The texts of the paths of the folders. -/
def paths (f : Forest) : List String := f.subfolders.map fun folder => folder.1.fullPath

variable {node : DiskNode} {inside rest : Forest}

theorem paths_folder (hdir : node.isDir = true) :
    (cons node inside rest).paths = node.fullPath :: (inside.paths ++ rest.paths) := by
  simp [paths, subfolders, hdir]

theorem paths_file (hdir : node.isDir = false) : (cons node inside rest).paths = rest.paths := by
  simp [paths, subfolders, hdir]

theorem record_folder (hdir : node.isDir = true) (table : String → Option (List DiskNode)) :
    (cons node inside rest).record table = rest.record (Function.update
      (inside.record (Function.update table node.fullPath (some []))) node.fullPath
      (some (bySize inside.roots))) := by
  rw [record, if_pos hdir]

theorem record_file (hdir : node.isDir = false) (table : String → Option (List DiskNode)) :
    (cons node inside rest).record table = rest.record table := by
  rw [record, if_neg (by simp [hdir])]

/-- What is kept of other folders stays. -/
theorem record_other {f : Forest} {table : String → Option (List DiskNode)} {path : String}
    (h : path ∉ f.paths) : f.record table path = table path := by
  induction f generalizing table with
  | nil => rfl
  | cons node inside rest ihInside ihRest =>
    cases hdir : node.isDir with
    | true =>
      rw [paths_folder hdir, List.mem_cons, List.mem_append, not_or, not_or] at h
      rw [record_folder hdir, ihRest h.2.2, Function.update_of_ne h.1, ihInside h.2.1,
        Function.update_of_ne h.1]
    | false =>
      rw [paths_file hdir] at h
      rw [record_file hdir, ihRest h]

/-- Folders that are shown differently have their own children. -/
theorem record_own {f : Forest} {table : String → Option (List DiskNode)} (hpaths : f.paths.Nodup)
    {folder : DiskNode × Forest} (h : folder ∈ f.subfolders) :
    f.record table folder.1.fullPath = some (bySize folder.2.roots) := by
  induction f generalizing table with
  | nil => exact absurd h List.not_mem_nil
  | cons node inside rest ihInside ihRest =>
    cases hdir : node.isDir with
    | true =>
      rw [paths_folder hdir, List.nodup_cons, List.nodup_append, List.mem_append, not_or] at hpaths
      obtain ⟨⟨hinside, hrest⟩, hinsidePaths, hrestPaths, hapart⟩ := hpaths
      rw [record_folder hdir]
      rw [subfolders, if_pos hdir] at h
      rcases List.mem_append.mp h with hmem | hmem
      · have hlater : folder.1.fullPath ∉ rest.paths := by
          rcases List.mem_cons.mp hmem with heq | hmem
          · rw [heq]
            exact hrest
          · intro hlater
            exact hapart _ (List.mem_map_of_mem hmem) _ hlater rfl
        rw [record_other hlater]
        rcases List.mem_cons.mp hmem with heq | hmem
        · rw [heq, Function.update_self]
        · have hne : folder.1.fullPath ≠ node.fullPath := by
            intro heq
            apply hinside
            rw [← heq]
            exact List.mem_map_of_mem hmem
          rw [Function.update_of_ne hne, ihInside hinsidePaths hmem]
      · exact ihRest hrestPaths hmem
    | false =>
      rw [paths_file hdir] at hpaths
      rw [subfolders, if_neg (by simp [hdir]), List.nil_append] at h
      rw [record_file hdir, ihRest hpaths h]

end Forest

theorem bySize_perm (nodes : List DiskNode) : (bySize nodes).Perm nodes := List.mergeSort_perm _ _

/-- Sorted by a number, the largest first. -/
theorem pairwise_mergeSort_ge {α : Type} (key : α → ℕ) (l : List α) :
    (l.mergeSort fun a b => key b ≤ key a).Pairwise fun a b => key b ≤ key a := by
  have htrans (a b c : α) (hab : decide (key b ≤ key a) = true) (hbc : decide (key c ≤ key b) = true) :
      decide (key c ≤ key a) = true := by
    simp only [decide_eq_true_eq] at hab hbc ⊢
    exact hbc.trans hab
  have htotal (a b : α) : (decide (key b ≤ key a) || decide (key a ≤ key b)) = true := by
    simp only [Bool.or_eq_true, decide_eq_true_eq]
    exact Nat.le_total _ _
  exact (List.pairwise_mergeSort htrans htotal l).imp fun h => of_decide_eq_true h

theorem bySize_sorted (nodes : List DiskNode) :
    (bySize nodes).Pairwise fun a b => b.size ≤ a.size := pairwise_mergeSort_ge DiskNode.size nodes

end Tables

section Reports

variable {Path Name : Type} (fs : Paths Path Name) (cancelled : ℕ → Bool) (root : Path)
  (opened : Opened) (listing : Listing Name)

/-- What a folder has as its children: what was visited in it, the largest first. -/
def ChildrenOf (scan : ScanCache) (folder : DiskNode × Forest) : Prop :=
  ∃ children, getDiskChildren scan folder.1.fullPath = .ok children ∧
    children.Perm folder.2.roots ∧ children.Pairwise fun a b => b.size ≤ a.size

/-- The answer to a request for large entries, in terms of all entries. -/
structure LargestOf (nodes : List DiskNode) (minimum limit : ℕ) (includeDirs : Bool)
    (result : LargeDiskResult) : Prop where
  count : result.matchedCount = (nodes.filter fun n =>
    decide (minimum ≤ n.size) && (includeDirs || !n.isDir)).length
  size : result.matchedSize = min ((nodes.filter fun n =>
    decide (minimum ≤ n.size) && (includeDirs || !n.isDir)).map DiskNode.size).sum u64Max
  length : result.items.length = min limit result.matchedCount
  sorted : result.items.Pairwise fun a b => b.node.size ≤ a.node.size
  /-- What is not among the items is no larger than any of them. -/
  largest : ∃ others, (result.items ++ others).Perm ((nodes.filter fun n =>
    decide (minimum ≤ n.size) && (includeDirs || !n.isDir)).map largeItem) ∧
    ∀ item ∈ result.items, ∀ other ∈ others, other.node.size ≤ item.node.size

/-- What a scan has visited, below its root. -/
structure Reports (scan : ScanCache) (node : DiskNode) (f : Forest) : Prop where
  totals : scan.meta'.totalSize = min f.bytes u64Max ∧ scan.meta'.fileCount = f.files ∧
    scan.meta'.folderCount = f.folders
  /-- So are the totals of every folder. -/
  accounts : (Forest.cons node f .nil).Accounts
  limit : f.nodes.length ≤ maxEntries
  ids : ((Forest.cons node f .nil).nodes.map DiskNode.entryId).Nodup
  children : (Forest.cons node f .nil).paths.Nodup →
    ∀ folder ∈ (Forest.cons node f .nil).subfolders, ChildrenOf scan folder
  large : ∀ minSizeBytes limit includeDirs result,
    getLargeDiskItems scan minSizeBytes limit includeDirs = .ok result →
      LargestOf (Forest.cons node f .nil).nodes result.minimumSize result.resultLimit
        (includeDirs.getD false) result

/-- The whole of a tree that can be read: its forest, unless it has too many entries. -/
def ShowsAll (f : Forest) : Prop :=
  opened.Shows (listing.Shows fs root 0) f ∧ f.nodes.length ≤ maxEntries

variable {fs cancelled root opened listing}

theorem walkDir_spec : ∃ inside, FolderWalked fs cancelled root 0 opened (listing.Shows fs root 0)
    .start (walkDir fs cancelled root 0 0 opened listing .start) inside := by
  apply walkFolder_spec
  · rfl
  · intro start hvisited hlimit
    have hmax : start.limit ≤ u64Max := by
      rw [hlimit]
      decide
    have hroom : start.visited ≤ start.limit := by
      rw [hvisited, hlimit]
      exact Nat.zero_le _
    obtain ⟨f, h⟩ := @walkEntries_spec Path Name fs cancelled root 0 start .none listing hmax hroom
      (Nat.zero_le _) (Nat.zero_le _)
    exact ⟨f, h.added, h.sums, h.shows⟩

theorem FolderWalked.childrenOf {inside : Forest} {entries : Forest → Prop}
    (h : FolderWalked fs cancelled root 0 opened entries .start
      (walkDir fs cancelled root 0 0 opened listing .start) inside)
    (hpaths : (Forest.cons (walkDir fs cancelled root 0 0 opened listing .start).1 inside .nil).paths.Nodup)
    {folder : DiskNode × Forest}
    (hfolder : folder ∈
      (Forest.cons (walkDir fs cancelled root 0 0 opened listing .start).1 inside .nil).subfolders) :
    ChildrenOf (runDiskScan fs cancelled root opened listing) folder := by
  refine ⟨bySize folder.2.roots, ?_, bySize_perm _, bySize_sorted _⟩
  have hkept : (runDiskScan fs cancelled root opened listing).children folder.1.fullPath =
      some (bySize folder.2.roots) := by
    show (walkDir fs cancelled root 0 0 opened listing .start).2.childrenByDir _ = _
    rw [h.added.children]
    exact Forest.record_own hpaths hfolder
  rw [getDiskChildren, hkept]

/-- A sum that does not go over the largest number. -/
theorem foldl_satAdd (items : List LargeDiskItem) {start : ℕ} (h : start ≤ u64Max) :
    items.foldl (fun sum item => satAdd sum item.node.size) start =
      min (start + (items.map fun item => item.node.size).sum) u64Max := by
  induction items generalizing start with
  | nil => exact (min_eq_left h).symm
  | cons item items ih =>
    have hfits : satAdd start item.node.size ≤ u64Max := Nat.min_le_right _ _
    rw [List.foldl_cons, ih hfits, List.map_cons, List.sum_cons, satAdd]
    omega

/-- The kept entries answer for all entries. -/
theorem thresholdResult_largest {nodes : List DiskNode} {items : List LargeDiskItem}
    {minimum limit : ℕ} {includeDirs : Bool} (hminimum : minLargeBytes ≤ minimum)
    (hitems : items.Perm ((nodes.filter fun n => minLargeBytes ≤ n.size).map largeItem))
    (hsorted : items.Pairwise fun a b => b.node.size ≤ a.node.size) :
    LargestOf nodes minimum limit includeDirs (thresholdResult items minimum limit includeDirs) := by
  have hmatches : (items.filter fun item =>
      decide (minimum ≤ item.node.size) && (includeDirs || !item.node.isDir)).Perm
      ((nodes.filter fun n => decide (minimum ≤ n.size) && (includeDirs || !n.isDir)).map largeItem) := by
    refine (hitems.filter _).trans ?_
    rw [List.filter_map, List.filter_filter]
    apply List.Perm.of_eq
    congr 1
    apply List.filter_congr
    intro n _
    by_cases hn : minimum ≤ n.size
    · have hlarge : minLargeBytes ≤ n.size := hminimum.trans hn
      simp [largeItem, hn, hlarge]
    · simp [largeItem, hn]
  have hsortedMatches := hsorted.filter fun item =>
    decide (minimum ≤ item.node.size) && (includeDirs || !item.node.isDir)
  generalize hfound : (items.filter fun item =>
    decide (minimum ≤ item.node.size) && (includeDirs || !item.node.isDir)) = found
    at hmatches hsortedMatches
  have hresult : thresholdResult items minimum limit includeDirs = ⟨found.take limit, found.length,
      found.foldl (fun sum item => satAdd sum item.node.size) 0, limit, limit < found.length,
      minimum⟩ := by
    rw [thresholdResult, hfound]
  rw [hresult]
  have hapart : ∀ item ∈ found.take limit, ∀ other ∈ found.drop limit,
      other.node.size ≤ item.node.size := by
    rw [← List.take_append_drop limit found, List.pairwise_append] at hsortedMatches
    exact hsortedMatches.2.2
  exact {
    count := by
      show found.length = _
      rw [hmatches.length_eq, List.length_map]
    size := by
      show found.foldl _ 0 = _
      rw [foldl_satAdd _ (Nat.zero_le _), Nat.zero_add, (hmatches.map fun item => item.node.size).sum_nat, List.map_map]
      rfl
    length := List.length_take
    sorted := hsortedMatches.sublist (List.take_sublist _ _)
    largest := ⟨found.drop limit, by rw [List.take_append_drop]; exact hmatches, hapart⟩ }

theorem scan_reports {inside : Forest} (h : FolderWalked fs cancelled root 0 opened
    (listing.Shows fs root 0) .start (walkDir fs cancelled root 0 0 opened listing .start) inside) :
    Reports (runDiskScan fs cancelled root opened listing)
      (walkDir fs cancelled root 0 0 opened listing .start).1 inside := by
  have haccounts := h.added.accounts
  have htotals := haccounts.1
  rw [if_pos h.isDir] at htotals
  have hcount := h.added.count
  have hwithin := h.added.within (Nat.zero_le _)
  exact {
    totals := htotals
    accounts := haccounts
    limit := by
      rw [Forest.nodes, List.length_append, List.length_cons, Forest.nodes, List.length_nil] at hcount
      have hstart : WalkAccum.start.visited = 0 ∧ WalkAccum.start.limit = maxEntries := ⟨rfl, rfl⟩
      omega
    ids := h.added.ids
    children := fun hpaths folder hfolder => h.childrenOf hpaths hfolder
    large := by
      intro minSizeBytes limit includeDirs result hresult
      rw [getLargeDiskItems] at hresult
      by_cases hminimum : minSizeBytes.getD minLargeBytes < minLargeBytes
      · rw [if_pos hminimum] at hresult
        cases hresult
      · rw [if_neg hminimum] at hresult
        rw [← Except.ok.inj hresult]
        have hlarge : (walkDir fs cancelled root 0 0 opened listing .start).2.large =
            ((Forest.cons (walkDir fs cancelled root 0 0 opened listing .start).1 inside .nil).nodes.filter
              fun n => minLargeBytes ≤ n.size).map largeItem := h.added.large
        apply thresholdResult_largest (Nat.not_lt.mp hminimum) _
          (pairwise_mergeSort_ge (fun item : LargeDiskItem => item.node.size) _)
        rw [← hlarge]
        exact List.mergeSort_perm _ _ }

/-- Whatever a scan had to leave out, what it reports is exact for what it has visited; and where it
calls itself complete, that is all there was. -/
theorem scan_is_exact (hmono : Monotone cancelled) :
    ∃ node f, Reports (runDiskScan fs cancelled root opened listing) node f ∧
      ((runDiskScan fs cancelled root opened listing).meta'.complete = true →
        ShowsAll fs root opened listing f) := by
  obtain ⟨inside, h⟩ := @walkDir_spec Path Name fs cancelled root opened listing
  have hreports := scan_reports h
  refine ⟨_, inside, hreports, ?_⟩
  intro hcomplete
  have hmeta : (decide ((walkDir fs cancelled root 0 0 opened listing .start).2.skippedEntries = 0) &&
      !(walkDir fs cancelled root 0 0 opened listing .start).2.truncated &&
      !cancelled (walkDir fs cancelled root 0 0 opened listing .start).2.loads) = true := hcomplete
  simp only [Bool.and_eq_true, decide_eq_true_eq, Bool.not_eq_true'] at hmeta
  have hwhole : Whole cancelled .start (walkDir fs cancelled root 0 0 opened listing .start).2 := by
    refine ⟨hmeta.1.1, ?_⟩
    intro k _ hlater
    have hle := hmono hlater.le
    rw [hmeta.2] at hle
    exact Bool.eq_false_of_le_false hle
  exact ⟨(h.shows hwhole).2, hreports.limit⟩

def samplePaths : Paths String String where
  join dir name := dir ++ "/" ++ name
  fileName _ := none
  pathText := id
  nameText := id

/-- A folder with a file before a link. -/
def sampleListing : Listing String :=
  .itself (.folder "a" (.listed "") (.file "b" 5 "" (.link (.finish false))) (.finish false))

/-- The flag is set after its fifth reading. -/
theorem scan_is_exact_cancelled :
    ∃ node f, Reports (runDiskScan samplePaths (fun k => decide (5 ≤ k)) "" (.listed "") sampleListing)
        node f ∧
      ((runDiskScan samplePaths (fun k => decide (5 ≤ k)) "" (.listed "")
          sampleListing).meta'.complete = true →
        ShowsAll samplePaths "" (.listed "") sampleListing f) := by
  apply scan_is_exact
  intro a b hab
  by_cases ha : 5 ≤ a
  · simp [ha, ha.trans hab]
  · simp [ha]

end Reports

section Completeness

variable {Path Name : Type} {fs : Paths Path Name} {dir : Path} {depth entryId : ℕ}
  {acc acc' : WalkAccum} {g : Gathered}

/-- Nothing was left out, and only the entries of a forest were counted. -/
structure Clean (acc acc' : WalkAccum) (f : Forest) : Prop where
  skipped : acc'.skippedEntries = acc.skippedEntries
  truncated : acc'.truncated = acc.truncated
  visited : acc'.visited = acc.visited + f.nodes.length
  limit : acc'.limit = acc.limit

theorem clean_addLarge (node : DiskNode) (acc : WalkAccum) : Clean acc (addLarge node acc) .nil := by
  rw [addLarge_eq]
  exact ⟨rfl, rfl, rfl, rfl⟩

theorem walkFolder_clean {opened : Opened} {entries : WalkAccum → Gathered × WalkAccum}
    {shown : Forest → Prop} {f : Forest} (hdepth : depth ≤ maxDepth) (h : opened.Shows shown f)
    (hentries : shown f → ∀ start : WalkAccum, start.visited = acc.visited → start.limit = acc.limit →
      Clean start (entries start).2 f) :
    Clean acc (walkFolder fs (fun _ => false) dir depth entryId opened entries acc).2 f := by
  unfold walkFolder
  dsimp only
  rw [if_neg (by simp), if_neg (Nat.not_lt.mpr hdepth)]
  cases opened with
  | link => exact h.elim
  | unreadable => exact h.elim
  | closed lastModified notFound =>
    cases notFound with
    | false => exact h.elim
    | true =>
      rw [show f = .nil from h]
      exact ⟨rfl, rfl, rfl, rfl⟩
  | listed lastModified =>
    dsimp only
    have hclean := hentries h (acc.keep (fs.pathText dir) []).load rfl rfl
    rw [addLarge_eq]
    exact ⟨hclean.skipped, hclean.truncated, hclean.visited, hclean.limit⟩

/-- A listing that can be read in full is, as long as the limit is not reached. -/
theorem walkEntries_clean {listing : Listing Name} {f : Forest} (h : listing.Shows fs dir depth f)
    (hroom : acc.visited + f.nodes.length ≤ acc.limit) :
    Clean acc (walkEntries fs (fun _ => false) dir depth listing g acc).2 f := by
  induction listing generalizing dir depth g acc f with
  | finish failed =>
    rw [walkEntries, h.1, h.2]
    exact ⟨rfl, rfl, rfl, rfl⟩
  | itself rest ih =>
    rw [walkEntries, if_neg (by simp)]
    have hclean := @ih dir depth acc.load g f h hroom
    exact ⟨hclean.skipped, hclean.truncated, hclean.visited, hclean.limit⟩
  | link rest _ => exact h.elim
  | file name size lastModified rest ih =>
    obtain ⟨node, f', rfl, -, -, -, -, -, hrest⟩ := h
    have hlength : (Forest.cons node .nil f').nodes.length = f'.nodes.length + 1 := rfl
    rw [walkEntries, if_neg (by simp), if_neg (by omega)]
    dsimp only
    generalize (⟨acc.visited + 1, fs.nameText name, fs.pathText (fs.join dir name), size, false,
      lastModified, 0, 0⟩ : DiskNode) = child
    have hchild := clean_addLarge child acc.load.visit
    have hvisited : (addLarge child acc.load.visit).visited = acc.visited + 1 := hchild.visited
    have hlimit : (addLarge child acc.load.visit).limit = acc.limit := hchild.limit
    have hclean := @ih dir depth (addLarge child acc.load.visit) (g.addFile child) f' hrest (by omega)
    refine ⟨hclean.skipped.trans hchild.skipped, hclean.truncated.trans hchild.truncated, ?_,
      hclean.limit.trans hlimit⟩
    rw [hclean.visited, hvisited, hlength]
    omega
  | folder name opened inside rest ihInside ihRest =>
    obtain ⟨node, inner, f', rfl, -, -, hdepth, hinside, hrest⟩ := h
    have hlength : (Forest.cons node inner f').nodes.length =
        inner.nodes.length + (f'.nodes.length + 1) := by
      rw [Forest.nodes, List.length_append, List.length_cons]
    rw [walkEntries, if_neg (by simp), if_neg (by omega)]
    dsimp only
    have hfolder : Clean acc.load.visit (walkFolder fs (fun _ => false) (fs.join dir name) (depth + 1)
        (acc.visited + 1) opened (walkEntries fs (fun _ => false) (fs.join dir name) (depth + 1) inside
          .none) acc.load.visit).2 inner := by
      apply walkFolder_clean hdepth hinside
      intro hshown start hvisited hlimit
      have hstart : start.visited = acc.visited + 1 ∧ start.limit = acc.limit := ⟨hvisited, hlimit⟩
      exact ihInside hshown (by omega)
    generalize walkFolder fs (fun _ => false) (fs.join dir name) (depth + 1) (acc.visited + 1) opened
      (walkEntries fs (fun _ => false) (fs.join dir name) (depth + 1) inside .none) acc.load.visit =
      walked at hfolder ⊢
    have hvisited : walked.2.visited = acc.visited + 1 + inner.nodes.length := hfolder.visited
    have hlimit : walked.2.limit = acc.limit := hfolder.limit
    have hclean := @ihRest dir depth walked.2 (g.addFolder walked.1) f' hrest (by omega)
    refine ⟨hclean.skipped.trans hfolder.skipped, hclean.truncated.trans hfolder.truncated, ?_,
      hclean.limit.trans hlimit⟩
    rw [hclean.visited, hvisited, hlength]
    omega

/-- A scan that is not cancelled is complete exactly if the whole tree can be read, without links, and
it has no more entries than the limit. -/
theorem complete_iff_showsAll (fs : Paths Path Name) (root : Path) (opened : Opened)
    (listing : Listing Name) :
    (runDiskScan fs (fun _ => false) root opened listing).meta'.complete = true ↔
      ∃ f, ShowsAll fs root opened listing f := by
  constructor
  · intro h
    obtain ⟨node, f, -, hshows⟩ := @scan_is_exact Path Name fs (fun _ => false) root opened listing
      monotone_const
    exact ⟨f, hshows h⟩
  · rintro ⟨f, hshows, hroom⟩
    have hclean : Clean .start (walkDir fs (fun _ => false) root 0 0 opened listing .start).2 f := by
      apply walkFolder_clean (Nat.zero_le _) hshows
      intro hshown start hvisited hlimit
      apply walkEntries_clean hshown
      rw [hvisited, hlimit]
      exact (Nat.zero_add _).trans_le hroom
    show (decide ((walkDir fs (fun _ => false) root 0 0 opened listing .start).2.skippedEntries = 0) &&
      !(walkDir fs (fun _ => false) root 0 0 opened listing .start).2.truncated && !false) = true
    rw [hclean.skipped, hclean.truncated]
    rfl

end Completeness

end DiskAnalyzer
