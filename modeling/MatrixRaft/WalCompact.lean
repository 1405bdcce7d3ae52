/-
# WalCompact — what compaction keeps

`compact_through` drops the segments an index test selects and, before that, stores
the first record that stays as a whole one.  The rest of the store has to make sense
without what was dropped.
-/
import MatrixRaft.WalDelta

namespace MatrixRaft
open Theory PersistentRaftWal List WalDirectory Attempt.Keeps

/-! ## The first segment that stays -/

section Survivor
variable {α β : Type} {R : α → β → Prop} {ys : List β}

theorem forall₂_append_split {front back : List α}
    (related : List.Forall₂ R (front ++ back) ys) :
    ∃ front' back', ys = front' ++ back' ∧ List.Forall₂ R front front' ∧
      List.Forall₂ R back back' := by
  induction front generalizing ys with
  | nil => exact ⟨[], ys, rfl, .nil, related⟩
  | cons x front ih => grind [forall₂_cons_left_iff]

theorem map_eq_of_forall₂ {γ : Type} {f : α → γ} {g : β → γ} {xs : List α}
    (related : List.Forall₂ (fun x y => f x = g y) xs ys) : xs.map f = ys.map g := by
  rw [← forall₂_eq_eq_eq]
  exact forall₂_map_left_iff.mpr (forall₂_map_right_iff.mpr related)

theorem exists_of_forall₂ {xs : List α} (related : List.Forall₂ R xs ys) {x : α}
    (member : x ∈ xs) : ∃ y ∈ ys, R x y := by
  induction related with
  | nil => cases member
  | cons first _ ih => grind

theorem forall₂_filter {p : α → Bool} {q : β → Bool} {xs : List α}
    (related : List.Forall₂ R xs ys) (alike : ∀ x y, R x y → p x = q y) :
    List.Forall₂ R (xs.filter p) (ys.filter q) := by
  induction related with
  | nil => exact .nil
  | cons first _ ih =>
    rw [filter_cons, filter_cons, alike _ _ first]
    split
    · exact .cons first ih
    · exact ih

end Survivor

def firstWhole (before : List WalRecord) : List WalRecord → List WalRecord
  | [] => []
  | head :: rest =>
    (if head.entriesAreDelta then wholeFromFolded head (foldWalEntries (before ++ [head]))
      else head) :: rest

theorem foldWalEntries_firstWhole (before frames after : List WalRecord) (held : frames ≠ []) :
    foldWalEntries (firstWhole before frames ++ after)
      = foldWalEntries (before ++ frames ++ after) := by
  obtain ⟨head, rest, rfl⟩ := exists_cons_of_ne_nil held
  rw [firstWhole, cons_append, append_assoc, cons_append]
  split
  · have split : before ++ head :: (rest ++ after) = before ++ [head] ++ (rest ++ after) := by simp
    rw [split, foldWalEntries_append (before ++ [head])]
    rfl
  · next whole => exact (foldWalEntries_whole (by simpa using whole) before (rest ++ after)).symm

theorem firstWhole_length (before frames : List WalRecord) :
    (firstWhole before frames).length = frames.length := by
  cases frames <;> rfl

theorem firstWhole_committed {before frames : List WalRecord} {record : WalRecord}
    (member : record ∈ firstWhole before frames) :
    ∃ other ∈ frames, record.committedIndex = other.committedIndex := by
  rcases frames with _ | ⟨head, rest⟩
  · cases member
  rcases mem_cons.mp member with rfl | later
  · refine ⟨head, mem_cons_self, ?_⟩
    split <;> rfl
  · grind

/-! ## Removing files -/

theorem performAll_removes (files : WalDirectory) (ids : List Nat) :
    files.performAll (ids.map FileCall.remove)
      = files.filter fun entry => !ids.contains entry.1 := by
  induction ids generalizing files with
  | nil => simp
  | cons id ids ih =>
    rw [map_cons, performAll_cons, ih, perform, Cabinet.erase,
      filter_filter]
    grind

theorem foldl_remove (ids : List Nat) (wal : PersistentRaftWal) :
    ids.foldl (fun wal segmentId => wal.issue (.remove segmentId)) wal
      = { wal with disk := wal.disk.issueAll (ids.map .remove) } := by
  induction ids generalizing wal with
  | nil => simp
  | cons id ids ih =>
    rw [foldl_cons, ih, map_cons, ← singleton_append, Disk.issueAll_append]
    rfl

/-! ## Materialising -/

/-- The record that compaction at an index stores whole in place of a delta, if it does. -/
def PersistentRaftWal.materialized (wal : PersistentRaftWal) (logIndex : Nat) : Option WalRecord :=
  let removable := wal.removableIds logIndex
  if removable.isEmpty then none
  else match wal.segments.findIdx? fun segment => !removable.contains segment.segmentId with
    | none => none
    | some position =>
      match wal.segments[position]?.map wal.segmentRecords,
        wal.recordsOf (wal.segments.take position) with
      | some (.ok frames), .ok before =>
        (frames.head?.filter WalRecord.entriesAreDelta).map fun head =>
          wholeFromFolded head (foldWalEntries (before ++ [head]))
      | _, _ => none

variable {whole : WalRecord}

section Compaction
variable {frameLen : WalRecord → Option Nat} {wal : PersistentRaftWal} {shelved : List WalSegment}
  {active : WalSegment} {closed : WalDirectory} {file : SegmentFile} {removable : List Nat}

structure Survivor (wal : PersistentRaftWal) (removable : List Nat) (front : List WalSegment)
    (segment : WalSegment) (rest : List WalSegment) (pre : WalDirectory)
    (entry : Nat × SegmentFile) (post : WalDirectory) : Prop where
  segments : wal.segments = front ++ segment :: rest
  files : wal.disk.files = pre ++ entry :: post
  dropped : ∀ other ∈ front, other.segmentId ∈ removable
  stays : segment.segmentId ∉ removable
  named : segment.segmentId = entry.1
  fronts : List.Forall₂ (fun segment entry => segment.segmentId = entry.1) front pre
  rests : List.Forall₂ (fun segment entry => segment.segmentId = entry.1 ∧
    wal.segmentRecords segment = .ok entry.2.frames) rest post
  read : wal.segmentRecords segment = .ok entry.2.frames
  before : wal.recordsOf front = .ok pre.stored

namespace Survivor
variable {front rest : List WalSegment} {segment : WalSegment} {pre post : WalDirectory}
  {entry : Nat × SegmentFile}

theorem place (survivor : Survivor wal removable front segment rest pre entry post) :
    (wal.segments.findIdx? fun segment => !removable.contains segment.segmentId)
        = some front.length ∧
      wal.segments[front.length]? = some segment ∧ wal.segments.take front.length = front := by
  refine ⟨?_, by simp [survivor.segments], by rw [survivor.segments, take_left]⟩
  grind [survivor.segments, survivor.dropped, survivor.stays]

theorem materialized_eq {logIndex : Nat} (some : wal.removableIds logIndex ≠ [])
    (survivor : Survivor wal (wal.removableIds logIndex) front segment rest pre entry post) :
    wal.materialized logIndex = (entry.2.frames.head?.filter WalRecord.entriesAreDelta).map
      fun head => wholeFromFolded head (foldWalEntries (pre.stored ++ [head])) := by
  obtain ⟨position, slot, taken⟩ := survivor.place
  rw [materialized, if_neg (by simpa using some)]
  simp only [position, slot, Option.map_some, survivor.read, taken, survivor.before]

end Survivor

section
variable (mirrors : Mirrors frameLen wal shelved active closed file)

include mirrors

theorem Mirrors.reads : List.Forall₂ (fun segment entry => segment.segmentId = entry.1 ∧
      wal.segmentRecords segment = .ok entry.2.frames) wal.segments wal.disk.files := by
  have ascending : Cabinet.Ascending wal.disk.files := mirrors.files ▸ mirrors.ascending
  have among : ∀ entry ∈ closed, entry ∈ wal.disk.files := fun entry member => by
    grind [mirrors.files]
  rw [mirrors.segments]
  conv => arg 3; rw [mirrors.files]
  refine rel_append ?_ (.cons ⟨rfl, segmentRecords_held mirrors.isOpen.held
    mirrors.isOpen.counted⟩ .nil)
  have shelves := mirrors.shelves
  clear mirrors
  induction shelves with
  | nil => exact .nil
  | @cons segment entry segments entries first _ ih =>
    exact .cons ⟨first.named, first.segmentRecords ascending (among entry mem_cons_self)⟩
      (ih fun other member => among other (mem_cons_of_mem _ member))

theorem Mirrors.survivor (kept : active.segmentId ∉ removable) :
    ∃ front segment rest pre entry post,
      Survivor wal removable front segment rest pre entry post := by
  have found : (wal.segments.find? fun segment => !removable.contains segment.segmentId).isSome := by
    grind [mirrors.segments]
  obtain ⟨segment, hit⟩ := Option.isSome_iff_exists.mp found
  obtain ⟨stays, front, rest, segments, dropped⟩ := find?_eq_some_iff_append.mp hit
  have reads := mirrors.reads
  rw [segments] at reads
  obtain ⟨pre, others, files, fronts, backs⟩ := forall₂_append_split reads
  obtain ⟨entry, post, first, rests, rfl⟩ := forall₂_cons_left_iff.mp backs
  exact ⟨front, segment, rest, pre, entry, post, {
    segments := segments
    files := files
    dropped := fun other member => by simpa using dropped other member
    stays := by simpa using stays
    named := first.1
    fronts := fronts.imp fun _ _ both => both.1
    rests := rests
    read := first.2
    before := recordsOf_each (fronts.imp fun _ _ both => both.2) }⟩

section Surviving
variable {front rest : List WalSegment} {segment : WalSegment} {pre post : WalDirectory}
  {entry : Nat × SegmentFile}
  (survivor : Survivor wal removable front segment rest pre entry post)

include survivor

theorem Mirrors.rewritten {frames : List WalRecord} {synced : Nat}
    (length : frames.length = entry.2.frames.length)
    (fits : ∀ record ∈ frames, (frameLen record).isSome) {calls : List FileCall}
    (files : wal.disk.files.performAll calls = pre ++ (entry.1, ⟨frames, synced⟩) :: post) :
    ∃ active' closed' file', active'.segmentId = active.segmentId ∧ Mirrors frameLen { wal with
        disk := wal.disk.issueAll calls
        segments := if segment.isSealed then wal.segments else
          wal.segments.set front.length { segment with records := frames } }
        shelved active' closed' file' := by
  have allFit : ∀ record ∈ WalDirectory.stored (pre ++ (entry.1, ⟨frames, synced⟩) :: post),
      (frameLen record).isSome := by
    grind [survivor.files, WalDirectory.stored_append, WalDirectory.stored_cons, mirrors.fits]
  have segments := mirrors.segments.symm.trans survivor.segments
  have entries := mirrors.files.symm.trans survivor.files
  rcases rest.eq_nil_or_concat with rfl | ⟨rest', last, rfl⟩
  · -- the active segment itself
    obtain rfl : post = [] := forall₂_nil_left_iff.mp survivor.rests
    obtain ⟨rfl, same⟩ := append_inj' segments rfl
    obtain ⟨rfl, same'⟩ := append_inj' entries rfl
    obtain rfl : active = segment := (cons.inj same).1
    obtain rfl : (active.segmentId, file) = entry := (cons.inj same').1
    have opened : (if active.isSealed then wal.segments else
        wal.segments.set shelved.length { active with records := frames })
        = shelved ++ [{ active with records := frames }] := by
      simp [mirrors.isOpen.opened, mirrors.segments]
    refine ⟨{ active with records := frames }, closed, ⟨frames, synced⟩, rfl, ?_⟩
    exact {
      segments := opened
      files := files
      ascending := mirrors.ascending.replace
      shelves := mirrors.shelves
      isOpen := ⟨rfl, mirrors.isOpen.opened, rfl, mirrors.isOpen.counted.trans length.symm⟩
      next := mirrors.next
      fits := fun record member => allFit record (files ▸ member) }
  · -- a sealed one
    rw [concat_eq_append] at survivor segments
    obtain ⟨post', lasts, rfl, rests, ends⟩ := forall₂_append_split survivor.rests
    obtain ⟨final, nothing, -, none, rfl⟩ := forall₂_cons_left_iff.mp ends
    obtain rfl : nothing = [] := forall₂_nil_left_iff.mp none
    rw [← cons_append, ← append_assoc] at segments entries
    obtain ⟨rfl, same⟩ := append_inj' segments rfl
    obtain ⟨rfl, same'⟩ := append_inj' entries rfl
    obtain rfl : active = last := (cons.inj same).1
    obtain rfl : (active.segmentId, file) = final := (cons.inj same').1
    obtain ⟨pre', entries', split, fronts, backs⟩ := forall₂_append_split mirrors.shelves
    obtain ⟨entry', post'', shelf, more, rfl⟩ := forall₂_cons_left_iff.mp backs
    have lengths : pre.length = pre'.length :=
      survivor.fronts.length_eq.symm.trans fronts.length_eq
    obtain ⟨rfl, tails⟩ := append_inj split lengths
    obtain ⟨rfl, rfl⟩ := cons.inj tails
    have ascending := mirrors.ascending
    rw [append_assoc, cons_append] at ascending
    refine ⟨active, pre ++ (entry.1, ⟨frames, synced⟩) :: post', file, rfl, ?_⟩
    exact {
      segments := by rw [shelf.closed, if_pos rfl, mirrors.segments]
      files := by rw [append_assoc, cons_append]; exact files
      ascending := by simpa using ascending.replace
      shelves := rel_append fronts (.cons
        ⟨shelf.named, shelf.closed, shelf.released, shelf.counted.trans length.symm⟩ more)
      isOpen := mirrors.isOpen
      next := mirrors.next
      fits := fun record member => allFit record (files ▸ member) }

omit survivor in
theorem Mirrors.records : wal.records = foldWalRecords wal.disk.files.stored := by
  rw [PersistentRaftWal.records, mirrors.recordsOf_stored]

def materializeCalls (segmentId : Nat) (before frames : List WalRecord) : List FileCall :=
  if frames.head?.any WalRecord.entriesAreDelta then
    segmentCalls segmentId (firstWhole before frames)
  else []

/-- **Materialising** leaves the first segment that stays with a whole record at its head,
and everything else as it was. -/
theorem Mirrors.materialize_ok (fits : ∀ head ∈ entry.2.frames.head?, head.entriesAreDelta = true →
      (frameLen (wholeFromFolded head (foldWalEntries (pre.stored ++ [head])))).isSome) :
    ∃ wal' active' closed' file' synced,
      materializeFirstSurvivingRecord frameLen removable wal = (.ok (), wal') ∧
      active'.segmentId = active.segmentId ∧ Mirrors frameLen wal' shelved active' closed' file' ∧
      wal'.options = wal.options ∧
      wal'.disk = wal.disk.issueAll (materializeCalls entry.1 pre.stored entry.2.frames) ∧
      wal'.disk.files = pre ++ (entry.1, ⟨firstWhole pre.stored entry.2.frames, synced⟩) :: post := by
  obtain ⟨position, slot, taken⟩ := survivor.place
  have unchanged : firstWhole pre.stored entry.2.frames = entry.2.frames →
      wal.disk.files = pre ++ (entry.1,
        ⟨firstWhole pre.stored entry.2.frames, entry.2.synced⟩) :: post := by
    intro same
    rw [same]
    exact survivor.files
  unfold materializeFirstSurvivingRecord
  simp only [position, slot, survivor.read, taken, survivor.before]
  rcases held : entry.2.frames with _ | ⟨head, rest'⟩
  · refine ⟨wal, active, closed, file, entry.2.synced, rfl, rfl, mirrors, rfl, ?_, ?_⟩
    · simp [materializeCalls]
    · rw [held] at unchanged
      exact unchanged rfl
  by_cases delta : head.entriesAreDelta = true
  · have whole : firstWhole pre.stored (head :: rest')
        = wholeFromFolded head (foldWalEntries (pre.stored ++ [head])) :: rest' := by
      rw [firstWhole, if_pos delta]
    have framesFit : ∀ record ∈ firstWhole pre.stored (head :: rest'), (frameLen record).isSome := by
      intro record member
      rw [whole] at member
      rcases mem_cons.mp member with rfl | later
      · exact fits head (by rw [held]; rfl) delta
      · exact mirrors.fits record (by simp [survivor.files, held, later])
    have ascending : Cabinet.Ascending (pre ++ (entry.1, entry.2) :: post) := by
      have := mirrors.ascending
      rwa [← mirrors.files, survivor.files] at this
    have files : wal.disk.files.performAll
        (segmentCalls entry.1 (firstWhole pre.stored (head :: rest')))
        = pre ++ (entry.1, ⟨firstWhole pre.stored (head :: rest'),
            (firstWhole pre.stored (head :: rest')).length⟩) :: post := by
      rw [survivor.files]
      exact performAll_segmentCalls ascending _
    obtain ⟨active', closed', file', named, after⟩ := mirrors.rewritten survivor
      (by rw [firstWhole_length, held]) framesFit files
    have written := writeWalSegmentFile_ok segment.segmentId framesFit wal
    simp only [if_pos delta]
    have calls : materializeCalls entry.1 pre.stored (head :: rest')
        = segmentCalls entry.1 (firstWhole pre.stored (head :: rest')) := by
      grind [materializeCalls]
    rw [calls, ← survivor.named]
    rw [← survivor.named] at after files
    refine ⟨_, active', closed', file', _, ?_, named, after, rfl, rfl, files⟩
    grind
  · have same : firstWhole pre.stored (head :: rest') = head :: rest' := by
      rw [firstWhole, if_neg delta]
    simp only [if_neg delta]
    refine ⟨wal, active, closed, file, entry.2.synced, rfl, rfl, mirrors, rfl, ?_, ?_⟩
    · grind [materializeCalls, Disk.issueAll_nil]
    · grind

end Surviving

/-! ## Dropping -/

theorem Mirrors.shelved_below : ∀ segment ∈ shelved, segment.segmentId < active.segmentId := by
  intro segment member
  have named : shelved.map WalSegment.segmentId = closed.map Prod.fst :=
    map_eq_of_forall₂ (mirrors.shelves.imp fun _ _ shelf => shelf.named)
  have held : segment.segmentId ∈ closed.map Prod.fst := named ▸ mem_map_of_mem member
  obtain ⟨entry, among, same⟩ := mem_map.mp held
  rw [← same]
  exact mirrors.ascending.below entry among

theorem Mirrors.active_stays (keeps : 0 < wal.options.minKeepSegments) (logIndex : Nat) :
    active.segmentId ∉ wal.removableIds logIndex := by
  intro removable
  obtain ⟨segment, among, same⟩ := mem_map.mp removable
  have early := (mem_filter.mp among).1
  rw [mirrors.segments, length_append, length_singleton,
    take_append_of_le_length (by omega)] at early
  have := mirrors.shelved_below segment (mem_of_mem_take early)
  omega

theorem Mirrors.dropped (stays : active.segmentId ∉ removable) (released : Nat) :
    Mirrors frameLen { wal with
        disk := wal.disk.issueAll (removable.map .remove)
        segments := wal.segments.filter fun segment => !removable.contains segment.segmentId
        releasedSegmentCount := released }
      (shelved.filter fun segment => !removable.contains segment.segmentId) active
      (closed.filter fun entry => !removable.contains entry.1) file := by
  have files : wal.disk.files.performAll (removable.map .remove)
      = (closed.filter fun entry => !removable.contains entry.1) ++ [(active.segmentId, file)] := by
    rw [performAll_removes, mirrors.files, filter_append]
    grind
  exact {
    segments := by
      rw [mirrors.segments, filter_append]
      grind
    files := files
    ascending := by
      rw [← files, performAll_removes]
      exact (mirrors.files ▸ mirrors.ascending : Cabinet.Ascending wal.disk.files).filter _
    shelves := forall₂_filter mirrors.shelves fun _ _ shelf => by rw [shelf.named]
    isOpen := mirrors.isOpen
    next := mirrors.next
    fits := by
      intro record member
      refine mirrors.fits record ?_
      have member : record ∈ WalDirectory.stored (wal.disk.files.performAll (removable.map .remove)) :=
        member
      rw [performAll_removes] at member
      obtain ⟨entry, among, held⟩ := mem_flatMap.mp member
      exact mem_flatMap.mpr ⟨entry, (mem_filter.mp among).1, held⟩ }

theorem Mirrors.materialized_mem (keeps : 0 < wal.options.minKeepSegments) {logIndex : Nat}
    (stored : whole ∈ wal.materialized logIndex) : whole ∈ wal.records := by
  have some : wal.removableIds logIndex ≠ [] := by
    intro none
    rw [materialized, none] at stored
    cases stored
  obtain ⟨front, segment, rest, pre, entry, post, survivor⟩ :=
    mirrors.survivor (mirrors.active_stays keeps logIndex)
  rw [survivor.materialized_eq some] at stored
  obtain ⟨head, first, rfl⟩ := Option.map_eq_some_iff.mp stored
  obtain ⟨later, frames⟩ := head?_eq_some_iff.mp (Option.filter_eq_some_iff.mp first).1
  have files : wal.disk.files.stored = pre.stored ++ head :: (later ++ post.stored) := by
    simp [survivor.files, frames]
  rw [mirrors.records, files]
  exact mem_foldWalRecords pre.stored _ head

/-- **Compaction** drops nothing, or leaves a whole record at the head of what stays. -/
theorem Mirrors.compact_cases (keeps : 0 < wal.options.minKeepSegments) (logIndex : Nat)
    (fits : ∀ whole ∈ wal.materialized logIndex, (frameLen whole).isSome) :
    compactThrough frameLen logIndex wal = (.ok 0, wal) ∨
    ∃ front segment rest pre entry post synced wal', wal.removableIds logIndex ≠ [] ∧
      Survivor wal (wal.removableIds logIndex) front segment rest pre entry post ∧
      compactThrough frameLen logIndex wal = (.ok (wal.removableIds logIndex).length, wal') ∧
      (∃ shelved active closed file, Mirrors frameLen wal' shelved active closed file) ∧
      wal'.options = wal.options ∧
      wal'.disk = wal.disk.issueAll (materializeCalls entry.1 pre.stored entry.2.frames
        ++ (wal.removableIds logIndex).map .remove) ∧
      wal'.disk.files = (entry.1, ⟨firstWhole pre.stored entry.2.frames, synced⟩)
        :: post.filter fun entry => !(wal.removableIds logIndex).contains entry.1 := by
  unfold compactThrough
  by_cases short : wal.segments.length ≤ wal.options.minKeepSegments
  · exact .inl (by rw [if_pos short])
  simp only [if_neg short]
  by_cases none : (wal.removableIds logIndex).isEmpty = true
  · exact .inl (by rw [if_pos none])
  simp only [if_neg none]
  have stays := mirrors.active_stays keeps logIndex
  set removable := wal.removableIds logIndex
  obtain ⟨front, segment, rest, pre, entry, post, survivor⟩ := mirrors.survivor stays
  obtain ⟨wal₁, active₁, closed₁, file₁, synced, ran, named, mirrors₁, options₁, disk₁, files₁⟩ :=
    mirrors.materialize_ok survivor fun head first delta => fits _ (by
      rw [survivor.materialized_eq (by simpa using none)]
      exact Option.map_eq_some_iff.mpr ⟨head, Option.filter_eq_some_iff.mpr ⟨first, delta⟩, rfl⟩)
  have stays₁ : active₁.segmentId ∉ removable := named ▸ stays
  have after := mirrors₁.dropped stays₁ (wal₁.releasedSegmentCount + removable.length)
  refine .inr ⟨front, segment, rest, pre, entry, post, synced, _, by simpa using none, survivor, ?_,
    ⟨_, _, _, _, after⟩, options₁, ?_, ?_⟩
  · rw [ran]
    simp only [foldl_remove]
  · rw [Disk.issueAll_append, ← disk₁]
  show wal₁.disk.files.performAll (removable.map .remove) = _
  rw [performAll_removes, files₁, filter_append, filter_eq_nil_iff.mpr,
    nil_append, filter_cons, if_pos]
  · simpa using survivor.named ▸ survivor.stays
  intro dropped member
  have held : dropped.1 ∈ front.map WalSegment.segmentId := by
    grind [map_eq_of_forall₂ survivor.fronts]
  obtain ⟨owner, among, same⟩ := mem_map.mp held
  have gone := survivor.dropped owner among
  grind

end
end Compaction

/-! ## What recovery reads afterwards -/

theorem foldWalLatestRecord_firstWhole (before frames after : List WalRecord) (held : frames ≠ []) :
    foldWalLatestRecord (firstWhole before frames ++ after)
      = foldWalLatestRecord (before ++ frames ++ after) := by
  unfold foldWalLatestRecord
  rw [foldWalEntries_firstWhole before frames after held]
  rcases after.eq_nil_or_concat with rfl | ⟨init, last, rfl⟩
  · obtain ⟨head, rest, rfl⟩ := exists_cons_of_ne_nil held
    rcases rest.eq_nil_or_concat with rfl | ⟨init, last, rfl⟩
    · simp only [append_nil, firstWhole, getLast?_singleton, getLast?_concat,
        Option.map_some]
      split <;> rfl
    · grind [firstWhole]
  · simp

theorem foldWalLatestRecord_common {front front' back : List WalRecord} {record : WalRecord}
    (member : record ∈ back) (whole : record.entriesAreDelta = false) :
    foldWalLatestRecord (front ++ back) = foldWalLatestRecord (front' ++ back) := by
  obtain ⟨pre, post, rfl⟩ := append_of_mem member
  have folds (front : List WalRecord) :
      foldWalEntries (front ++ (pre ++ record :: post)) = foldWalEntries (record :: post) := by
    rw [← append_assoc]
    exact foldWalEntries_whole whole _ _
  unfold foldWalLatestRecord
  grind

theorem recover_latest {stored stored' : List WalRecord}
    (latest : foldWalLatestRecord stored = some whole) (latest' : foldWalLatestRecord stored' = some whole)
    (valid : whole.recoverable = true)
    (ordered : stored.Pairwise fun a b => a.committedIndex ≤ b.committedIndex)
    (from_ : ∀ record ∈ stored', ∃ other ∈ stored, record.committedIndex = other.committedIndex) :
    (recoverFromWalRecords stored').2 = some whole := by
  rcases stored.eq_nil_or_concat with rfl | ⟨init, last, rfl⟩
  · cases latest
  rcases stored'.eq_nil_or_concat with rfl | ⟨init', last', rfl⟩
  · cases latest'
  simp only [concat_eq_append] at *
  have ends (init : List WalRecord) (last : WalRecord)
      (latest : foldWalLatestRecord (init ++ [last]) = some whole) :
      whole.committedIndex = last.committedIndex := by
    rw [foldWalLatestRecord_concat] at latest
    rw [← Option.some.inj latest]
    rfl
  refine recover_last latest' valid fun record member => ?_
  obtain ⟨other, among, same⟩ := from_ record (mem_append_left _ member)
  rw [same, ← ends _ _ latest', ends _ _ latest]
  rcases mem_append.mp among with earlier | final
  · exact (pairwise_append.mp ordered).2.2 other earlier last mem_cons_self
  · rw [mem_singleton.mp final]

theorem map_committedIndex_foldWalRecords (stored : List WalRecord) :
    (foldWalRecords stored).map WalRecord.committedIndex = stored.map WalRecord.committedIndex := by
  unfold foldWalRecords
  generalize ([] : List LogEntry) = folded
  induction stored generalizing folded with
  | nil => rfl
  | cons record stored ih =>
    rw [foldWalRecordsFrom, map_cons, map_cons, ih]
    rfl

theorem latest_mem_foldWalRecords {stored : List WalRecord}
    (latest : foldWalLatestRecord stored = some whole) : whole ∈ foldWalRecords stored := by
  rcases stored.eq_nil_or_concat with rfl | ⟨init, last, rfl⟩
  · cases latest
  rw [concat_eq_append] at latest ⊢
  rw [foldWalLatestRecord_concat, ← foldWalEntries_concat] at latest
  obtain rfl := Option.some.inj latest
  exact mem_foldWalRecords init [] last

/-! ## Appends -/

variable (frameLen : WalRecord → Option Nat)

def appendAll (appends : List Appending) : WalM Unit :=
  Attempt.forEach (Appending.perform frameLen) appends

/-- Memory mirrors the directory, and only a log that never rolled has a segment without
records. -/
def Filled (wal : PersistentRaftWal) : Prop :=
  wal.options.validate = .ok () ∧
  ∃ shelved active closed file, Mirrors frameLen wal shelved active closed file ∧
    (∀ entry ∈ closed, entry.2.frames ≠ []) ∧ (file.frames = [] → closed = [])

section Filled
variable {frameLen : WalRecord → Option Nat} {wal : PersistentRaftWal}

theorem Mirrors.rolls_full {shelved : List WalSegment} {active : WalSegment}
    {closed : WalDirectory} {file : SegmentFile}
    (mirrors : Mirrors frameLen wal shelved active closed file)
    (valid : wal.options.validate = .ok ())
    (why : wal.rollingByCount = true ∨ 0 < wal.activeRecords) : file.frames ≠ [] := by
  rw [mirrors.activeRecords] at why
  rintro empty
  rw [empty] at why
  rcases why with byCount | some
  · simp only [rollingByCount, mirrors.activeRecords, empty, length_nil,
      decide_eq_true_eq, Nat.le_zero] at byCount
    simp [PersistentRaftWalOptions.validate, byCount] at valid
  · cases some

theorem Filled.write (filled : Filled frameLen wal) (record : WalRecord) (fsync : Bool) :
    Filled frameLen (writeRecord frameLen record wal.activeRecords wal.rollingByCount fsync wal).2 := by
  obtain ⟨valid, shelved, active, closed, file, mirrors, full, started⟩ := filled
  rcases mirrors.writeRecord_cases record wal.activeRecords wal.rollingByCount fsync with
    ⟨_, _, _, moved⟩ | ⟨_, refused⟩ | ⟨report, bytes, frame, stays | ⟨rolls, why⟩⟩
  · rw [moved]
    exact ⟨valid, shelved, active, closed, file, mirrors, full, started⟩
  · rw [refused]
    exact ⟨valid, shelved, active, closed, file, mirrors, full, started⟩
  · rw [stays]
    exact ⟨valid, _, _, _, _, mirrors.entered (Option.isSome_of_mem frame) fsync _, full,
      fun empty => by simp at empty⟩
  · rw [rolls]
    refine ⟨valid, _, _, _, _, mirrors.rolled.entered (Option.isSome_of_mem frame) fsync none, ?_,
      fun empty => by simp [SegmentFile.empty] at empty⟩
    have held := mirrors.rolls_full valid why
    grind

theorem Filled.synced (filled : Filled frameLen wal) :
    Filled frameLen (wal.issue (.sync wal.activeId)) := by
  obtain ⟨valid, shelved, active, closed, file, mirrors, full, started⟩ := filled
  exact ⟨valid, shelved, active, closed, _, mirrors.synced, full, started⟩

theorem Filled.perform (appending : Appending) :
    Attempt.Keeps (Filled frameLen) (appending.perform frameLen) := by
  cases appending with
  | append => exact bind (fun _ filled => Filled.write filled _ _) fun _ => pure _
  | appendBatch records =>
    exact (appendBatch_keeps Filled.write Filled.synced records).bind fun _ => pure _
  | appendBuilt build =>
    exact (appendBuilt_keeps Filled.write build).bind fun _ => pure _

theorem Filled.appendAll (appends : List Appending) :
    Attempt.Keeps (Filled frameLen) (appendAll frameLen appends) :=
  forEach appends fun appending _ => Filled.perform appending

variable {options : PersistentRaftWalOptions}

theorem Filled.fresh (valid : options.validate = .ok ()) {disk : Disk} (empty : disk.files = []) :
    Filled frameLen (openInner options disk) := by
  have opened : Reopened frameLen disk (openInner options disk) := openInner_empty empty
  obtain ⟨shelved, active, closed, file, mirrors⟩ := opened.mirrors
  obtain rfl : closed = [] := by
    grind [length_singleton, mirrors.files.symm, openInner_empty_files,
      length_eq_zero_iff]
  exact ⟨valid, shelved, active, [], file, mirrors, fun _ none => (nomatch none), fun _ => rfl⟩

theorem minKeepSegments_pos (valid : options.validate = .ok ()) : 0 < options.minKeepSegments := by
  unfold PersistentRaftWalOptions.validate at valid
  grind

theorem Filled.full (filled : Filled frameLen wal) {logIndex : Nat}
    (some : wal.removableIds logIndex ≠ []) : ∀ entry ∈ wal.disk.files, entry.2.frames ≠ [] := by
  obtain ⟨valid, shelved, active, closed, file, mirrors, full, started⟩ := filled
  intro entry member
  rw [mirrors.files] at member
  rcases mem_append.mp member with sealed | last
  · exact full entry sealed
  -- an empty active segment is the only one, and is never dropped
  rw [mem_singleton.mp last]
  intro none
  obtain ⟨id, rest, cons⟩ := exists_cons_of_ne_nil some
  have gone : id ∈ wal.removableIds logIndex := by simp [cons]
  obtain ⟨owner, among, rfl⟩ := mem_map.mp gone
  have early := mem_of_mem_take (mem_filter.mp among).1
  have shelves := mirrors.shelves
  rw [started none, forall₂_nil_right_iff] at shelves
  rw [mirrors.segments, shelves, nil_append, mem_singleton] at early
  exact mirrors.active_stays (minKeepSegments_pos valid) logIndex (early ▸ gone)

end Filled

/-! ## Compaction and recovery -/

/-- Nothing that stays depends on what is dropped: every segment before the kept ones is
dropped, or one of the kept ones holds a whole record. -/
def Severable (wal : PersistentRaftWal) (logIndex : Nat) : Prop :=
  ∃ front back, wal.segments = front ++ back ∧
    (∀ segment ∈ back, segment.segmentId ∉ wal.removableIds logIndex) ∧
    ((∀ segment ∈ front, segment.segmentId ∈ wal.removableIds logIndex) ∨
      ∃ segment ∈ back, ∃ records, wal.segmentRecords segment = .ok records ∧
        ∃ record ∈ records, record.entriesAreDelta = false)

section Severing
variable {wal : PersistentRaftWal} {removable : List Nat} {front rest : List WalSegment}
  {segment : WalSegment} {pre post : WalDirectory} {entry : Nat × SegmentFile}

theorem filter_kept {segments : List WalSegment} {entries : WalDirectory}
    (named : List.Forall₂ (fun segment entry => segment.segmentId = entry.1) segments entries)
    (stay : ∀ segment ∈ segments, segment.segmentId ∉ removable) :
    (entries.filter fun entry => !removable.contains entry.1) = entries := by
  refine filter_eq_self.mpr fun entry member => ?_
  have held : entry.1 ∈ segments.map WalSegment.segmentId := by grind [map_eq_of_forall₂ named]
  grind

theorem Survivor.latest_kept (survivor : Survivor wal removable front segment rest pre entry post)
    (held : entry.2.frames ≠ []) {front' back : List WalSegment}
    (split : wal.segments = front' ++ back) (stay : ∀ other ∈ back, other.segmentId ∉ removable)
    (sever : (∀ other ∈ front', other.segmentId ∈ removable) ∨
      ∃ other ∈ back, ∃ records, wal.segmentRecords other = .ok records ∧
        ∃ record ∈ records, record.entriesAreDelta = false) :
    foldWalLatestRecord (firstWhole pre.stored entry.2.frames
        ++ WalDirectory.stored (post.filter fun entry => !removable.contains entry.1))
      = foldWalLatestRecord wal.disk.files.stored := by
  have stored : wal.disk.files.stored = pre.stored ++ entry.2.frames ++ post.stored := by
    simp [survivor.files]
  -- no dropped segment after the survivor
  have severed : back = segment :: rest → foldWalLatestRecord (firstWhole pre.stored entry.2.frames
        ++ WalDirectory.stored (post.filter fun entry => !removable.contains entry.1))
      = foldWalLatestRecord wal.disk.files.stored := by
    intro same
    rw [filter_kept (survivor.rests.imp fun _ _ both => both.1)
      fun other member => stay other (same ▸ mem_cons_of_mem _ member), stored]
    exact foldWalLatestRecord_firstWhole _ _ _ held
  rcases append_eq_append_iff.mp (survivor.segments.symm.trans split) with
    ⟨between, rfl, tail⟩ | ⟨between, rfl, tail⟩
  · rcases between with _ | ⟨first, between⟩
    · exact severed tail.symm
    · obtain ⟨rfl, rfl⟩ := cons.inj tail
      rcases sever with all | ⟨other, among, records, read, record, member, whole⟩
      · grind [survivor.stays]
      -- a whole record after the last dropped segment
      obtain ⟨post₁, post₂, rfl, -, backs⟩ := forall₂_append_split survivor.rests
      obtain ⟨owned, held', -, reads⟩ := exists_of_forall₂ backs among
      have found : record ∈ WalDirectory.stored post₂ :=
        mem_flatMap.mpr ⟨owned, held', Except.ok.inj (read.symm.trans reads) ▸ member⟩
      rw [filter_append, filter_kept (backs.imp fun _ _ both => both.1) stay, stored,
        WalDirectory.stored_append, WalDirectory.stored_append, ← append_assoc,
        ← append_assoc]
      exact foldWalLatestRecord_common found whole
  · rcases between with _ | ⟨first, between⟩
    · exact severed tail
    · have gone := survivor.dropped first (by simp)
      grind

end Severing

/-- **Compaction keeps recovery.** If a log of valid records that rise in committed index is severable
at the index, and the record that is stored whole there, if any, fits a frame, compaction succeeds
and leaves the latest record as it was, and opening the directory again recovers it. -/
theorem compaction_keeps_recovery (frameLen : WalRecord → Option Nat)
    (options : PersistentRaftWalOptions) (valid : options.validate = .ok ())
    (disk : Disk) (empty : disk.files = []) (appends : List Appending) (logIndex : Nat)
    (wal : PersistentRaftWal)
    (reached : (appendAll frameLen appends (openInner options disk)).2 = wal)
    (recoverable : ∀ record ∈ wal.records, record.recoverable = true)
    (rising : wal.records.Pairwise fun a b => a.committedIndex ≤ b.committedIndex)
    (fits : ∀ whole ∈ wal.materialized logIndex, (frameLen whole).isSome)
    (severable : Severable wal logIndex) :
    ∃ released wal' reopened report, compactThrough frameLen logIndex wal = (.ok released, wal') ∧
      wal'.latestRecord = wal.latestRecord ∧
      openRecovered wal'.options wal'.disk = .ok (reopened, report) ∧
      report.recovered = wal.latestRecord ∧ reopened.latestRecord = wal.latestRecord := by
  obtain ⟨validated, shelved, active, closed, file, mirrors, full, started⟩ :=
    reached ▸ Filled.appendAll appends _ (Filled.fresh valid empty)
  have keeps := minKeepSegments_pos validated
  have latest := mirrors.latestRecord
  have ordered : wal.disk.files.stored.Pairwise fun a b => a.committedIndex ≤ b.committedIndex := by
    rw [← pairwise_map, ← map_committedIndex_foldWalRecords, ← mirrors.records,
      pairwise_map]
    exact rising
  -- what has to be shown of a directory for reopening to give the latest record
  have reopens : ∀ wal' : PersistentRaftWal, wal'.options = wal.options →
      (∃ shelved active closed file, Mirrors frameLen wal' shelved active closed file) →
      foldWalLatestRecord wal'.disk.files.stored = foldWalLatestRecord wal.disk.files.stored →
      (∀ record ∈ wal'.disk.files.stored, ∃ other ∈ wal.disk.files.stored,
        record.committedIndex = other.committedIndex) →
      wal'.latestRecord = wal.latestRecord ∧ ∃ reopened report,
        openRecovered wal'.options wal'.disk = .ok (reopened, report) ∧
        report.recovered = wal.latestRecord ∧ reopened.latestRecord = wal.latestRecord := by
    rintro wal' options' ⟨_, _, _, _, mirrors'⟩ same from_
    have reopened : Reopened frameLen wal'.disk (openInner wal'.options wal'.disk) :=
      openInner_reopened (mirrors'.files ▸ mirrors'.ascending) mirrors'.fits
    obtain ⟨_, _, _, _, mirrors''⟩ := reopened.mirrors
    refine ⟨by rw [mirrors'.latestRecord, same, latest], _, _,
      openRecovered_eq (options' ▸ validated) wal'.disk, ?_,
      by rw [mirrors''.latestRecord, reopened.stored_eq, same, latest]⟩
    show (recoverFromWalRecords wal'.disk.files.stored).2 = _
    rw [latest]
    rcases found : foldWalLatestRecord wal.disk.files.stored with _ | whole
    · have nothing : wal'.disk.files.stored = [] := by
        rw [found] at same
        simpa [foldWalLatestRecord] using same
      rw [nothing]
      rfl
    · refine recover_latest found (same.trans found) (recoverable whole ?_) ordered from_
      rw [mirrors.records]
      exact latest_mem_foldWalRecords found
  rcases mirrors.compact_cases keeps logIndex fits with unchanged |
    ⟨front, segment, rest, pre, entry, post, synced, wal', some, survivor, ran, mirrors', options', -,
      files⟩
  · obtain ⟨kept, reopened, report, opens, recovers, reads⟩ := reopens wal rfl
      ⟨shelved, active, closed, file, mirrors⟩ rfl fun record member => ⟨record, member, rfl⟩
    exact ⟨0, wal, reopened, report, unchanged, kept, opens, recovers, reads⟩
  · obtain ⟨front', back, split, stay, sever⟩ := severable
    have stored : wal'.disk.files.stored = firstWhole pre.stored entry.2.frames
        ++ WalDirectory.stored (post.filter fun entry =>
          !(wal.removableIds logIndex).contains entry.1) := by
      rw [files, WalDirectory.stored_cons]
    have held : entry.2.frames ≠ [] :=
      Filled.full ⟨validated, shelved, active, closed, file, mirrors, full, started⟩ some entry
        (by rw [survivor.files]; simp)
    obtain ⟨kept, reopened, report, opens, recovers, reads⟩ := reopens wal' options' mirrors'
      (stored ▸ survivor.latest_kept held split stay sever) (by
        intro record member
        rw [stored] at member
        rw [survivor.files]
        rcases mem_append.mp member with first | later
        · obtain ⟨other, among, same⟩ := firstWhole_committed first
          exact ⟨other, by simp [among], same⟩
        obtain ⟨kept, among, inside⟩ := mem_flatMap.mp later
        refine ⟨record, mem_flatMap.mpr ⟨kept, ?_, inside⟩, rfl⟩
        exact mem_append_right _ (mem_cons_of_mem _ (mem_filter.mp among).1))
    exact ⟨_, wal', reopened, report, ran, kept, opens, recovers, reads⟩

def threeSegments : List Appending :=
  [.append (logState [1]), .append (logState [1, 1]), .append (logState [1, 1, 1])]

theorem three_segments_compacted : ∃ released wal' reopened report,
      compactThrough (fun _ => some 8) 2 (appendAll (fun _ => some 8) threeSegments
          (openInner ⟨"wal", 1, 64, 1, true⟩ ⟨[], []⟩)).2 = (.ok released, wal') ∧
      wal'.latestRecord = some (logState [1, 1, 1]) ∧
      openRecovered wal'.options wal'.disk = .ok (reopened, report) ∧
      report.recovered = some (logState [1, 1, 1]) := by
  obtain ⟨released, wal', reopened, report, ran, kept, opens, recovers, -⟩ :=
    compaction_keeps_recovery (fun _ => some 8) ⟨"wal", 1, 64, 1, true⟩ rfl ⟨[], []⟩ rfl
      threeSegments 2 _ rfl (by decide +kernel) (by decide +kernel) (by decide +kernel)
      ⟨List.take 2 _, List.drop 2 _, (take_append_drop 2 _).symm, by decide +kernel,
        .inl (by decide +kernel)⟩
  have latest : (appendAll (fun _ => some 8) threeSegments
      (openInner ⟨"wal", 1, 64, 1, true⟩ ⟨[], []⟩)).2.latestRecord = some (logState [1, 1, 1]) := by
    decide +kernel
  exact ⟨released, wal', reopened, report, ran, kept.trans latest, opens, recovers.trans latest⟩

/-- A first record without entries leaves its segment without an index, so compaction keeps
it and drops the segment after it, whose entries the last record continues. -/
def baseInTheMiddle : List Appending :=
  [.append (logState []), .append (logState [1]), .append (logState [1, 1])]

theorem compaction_loses_base : let wal := (appendAll (fun _ => some 8) baseInTheMiddle
      (openInner ⟨"wal", 1, 64, 1, true⟩ ⟨[], []⟩)).2
    (∀ record ∈ wal.records, record.recoverable = true) ∧
    (wal.records.Pairwise fun a b => a.committedIndex ≤ b.committedIndex) ∧
    wal.latestRecord = some (logState [1, 1]) ∧
    (compactThrough (fun _ => some 8) 1 wal).1 = .ok 1 ∧
    ((compactThrough (fun _ => some 8) 1 wal).2.latestRecord.map fun record =>
      record.entries.map LogEntry.index) = some [2] := by
  decide +kernel

end MatrixRaft
