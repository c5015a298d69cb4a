import ScreenSearch.Traits.Memory

/-!
# Report file ownership

The `report_files` table says which source owns a generated file, and the hash of
what it wrote there. Rows written before paths were kept with forward slashes may
still name the file the other way; they are found all the same, and replaced by
the first save.

Main results:

* `getReportFile_from` — an owner comes from a row of the file;
* `mem_saveReportFile` — a save adds no other row.
-/

namespace ScreenSearch.Store

structure ReportFileRow where
  path : String
  payload : ReportFileOwnership
  deriving DecidableEq, Repr

def normalizePath (path : String) : String := path.map fun c => if c = '\\' then '/' else c

theorem normalizePath_idem (path : String) :
    normalizePath (normalizePath path) = normalizePath path := by
  refine String.toList_inj.mp ?_
  unfold normalizePath
  rw [String.toList_map, String.toList_map, List.map_map]
  refine List.map_congr_left fun c _ => ?_
  show (if (if c = '\\' then '/' else c) = '\\' then '/' else if c = '\\' then '/' else c) = _
  by_cases hSlash : c = '\\'
  · simp [hSlash]
  · rw [if_neg hSlash, if_neg hSlash]

/-- The exact path comes first. -/
def getReportFile (path : String) (files : List ReportFileRow) : Option ReportFileOwnership :=
  let path := normalizePath path
  let matching := files.filter fun row => row.path == path || normalizePath row.path == path
  ((matching.find? fun row => row.path == path).or matching.head?).map fun row =>
    { row.payload with path := normalizePath row.payload.path }

def saveReportFile (ownership : ReportFileOwnership) (files : List ReportFileRow) :
    List ReportFileRow :=
  let ownership := { ownership with path := normalizePath ownership.path }
  let files := files.filter fun row =>
    !(row.path != ownership.path && normalizePath row.path == ownership.path)
  if files.any fun row => row.path == ownership.path then
    files.map fun row => if row.path = ownership.path then { row with payload := ownership } else row
  else files ++ [{ path := ownership.path, payload := ownership }]

theorem getReportFile_from {path : String} {files : List ReportFileRow}
    {owner : ReportFileOwnership} (h : getReportFile path files = some owner) :
    ∃ row ∈ files, normalizePath row.path = normalizePath path ∧
      row.payload.sourceId = owner.sourceId ∧ row.payload.hash = owner.hash := by
  unfold getReportFile at h
  dsimp only at h
  rw [Option.map_eq_some_iff] at h
  obtain ⟨row, hRow, rfl⟩ := h
  have hIn : row ∈ files.filter fun row =>
      row.path == normalizePath path || normalizePath row.path == normalizePath path := by
    rcases Option.or_eq_some_iff.mp hRow with hFind | ⟨-, hHead⟩
    · exact List.mem_of_find?_eq_some hFind
    · exact List.mem_of_mem_head? hHead
  obtain ⟨hMem, hPath⟩ := List.mem_filter.mp hIn
  refine ⟨row, hMem, ?_, rfl, rfl⟩
  simp only [Bool.or_eq_true, beq_iff_eq] at hPath
  rcases hPath with hExact | hNormal
  · rw [hExact, normalizePath_idem]
  · exact hNormal

theorem mem_saveReportFile {ownership : ReportFileOwnership} {files : List ReportFileRow}
    {row : ReportFileRow} (h : row ∈ saveReportFile ownership files) :
    row ∈ files ∨ row.path = normalizePath ownership.path ∧
      row.payload = { ownership with path := normalizePath ownership.path } := by
  unfold saveReportFile at h
  dsimp only at h
  split at h
  · obtain ⟨old, hOld, rfl⟩ := List.mem_map.mp h
    split
    · rename_i hPath
      exact Or.inr ⟨hPath, rfl⟩
    · exact Or.inl (List.mem_of_mem_filter hOld)
  · rcases List.mem_append.mp h with hOld | hNew
    · exact Or.inl (List.mem_of_mem_filter hOld)
    · rw [List.mem_singleton.mp hNew]
      exact Or.inr ⟨rfl, rfl⟩

end ScreenSearch.Store
