import Cogterm.TextBuffer.Links

namespace Cogterm.Buffer

open Library Til List Function TextBuffer
open Unicode (WChar)

-- The buffer, the URI of the link that was opened last, and for every row of
-- the storage the links under which the text in it was written.
structure TracedBuffer where
  buffer : TextBuffer
  openUri : List WChar
  written : Nat → List (Nat × List WChar)

namespace TracedBuffer

def construct (width height : Nat) (attributes : TextAttribute) : TracedBuffer :=
  ⟨TextBuffer.construct width height attributes, [], fun _ => []⟩

variable (env : Environment) (hash : TextBuffer.UriHash)

-- A link is forgotten once nothing in the row refers to it.
def perform (traced : TracedBuffer) (operation : LinkOperation) : TracedBuffer :=
  let next := operation.perform env hash traced.buffer
  match operation with
  | .addHyperlink uri _ => ⟨next, uri, traced.written⟩
  | .endHyperlink => ⟨next, traced.openUri, traced.written⟩
  | .write _ y _ =>
    let index := traced.buffer.storageIndex y
    let links := (traced.buffer.currentAttributes.hyperlinkId, traced.openUri) :: traced.written index
    ⟨next, traced.openUri,
      update traced.written index (links.filter (fun link => (next.rows index).getHyperlinks.contains link.1))⟩
  | .incrementCircularBuffer _ =>
    ⟨next, traced.openUri, update traced.written (traced.buffer.storageIndex 0) []⟩

def run (traced : TracedBuffer) (operations : List LinkOperation) : TracedBuffer := operations.foldl (perform env hash) traced

-- The id of a link is used again for no other URI as long as a row refers to it.
def Unshared (buffer : TextBuffer) : LinkOperation → Prop
  | .addHyperlink uri params =>
    ∀ index < buffer.height, (getHyperlinkId hash buffer uri params).2 ∈ (buffer.rows index).getHyperlinks →
      buffer.getHyperlinkUriFromId (getHyperlinkId hash buffer uri params).2 = some uri
  | operation => operation.KeepsOpen buffer

instance (buffer : TextBuffer) : (operation : LinkOperation) → Decidable (Unshared hash buffer operation)
  | .addHyperlink _ _ => inferInstanceAs (Decidable (∀ index < buffer.height, _ → _))
  | .incrementCircularBuffer _ => inferInstanceAs (Decidable (¬ _))
  | .endHyperlink | .write _ _ _ => isTrue trivial

def AllUnshared : TextBuffer → List LinkOperation → Prop
  | _, [] => True
  | buffer, operation :: rest => Unshared hash buffer operation ∧ AllUnshared (operation.perform env hash buffer) rest

instance decidableAllUnshared : (buffer : TextBuffer) → (operations : List LinkOperation) →
    Decidable (AllUnshared env hash buffer operations)
  | _, [] => isTrue trivial
  | buffer, operation :: rest =>
    have := decidableAllUnshared (operation.perform env hash buffer) rest
    inferInstanceAs (Decidable (Unshared hash buffer operation ∧ _))

-- A cell with a link was written under a URI, and under no other than the one
-- that the buffer gives for it.
structure UrisAgree (traced : TracedBuffer) : Prop where
  cells : ∀ y column attr, (traced.buffer.getRow y).attr.atPosition 16 column = some attr → attr.hyperlinkId ≠ 0 →
    (∃ uri, (attr.hyperlinkId, uri) ∈ traced.written (traced.buffer.storageIndex y)) ∧
      ∀ uri, (attr.hyperlinkId, uri) ∈ traced.written (traced.buffer.storageIndex y) →
        traced.buffer.getHyperlinkUriFromId attr.hyperlinkId = some uri
  shared : ∀ y z columnY columnZ attrY attrZ uriY uriZ, (traced.buffer.getRow y).attr.atPosition 16 columnY = some attrY →
    (traced.buffer.getRow z).attr.atPosition 16 columnZ = some attrZ → attrY.hyperlinkId ≠ 0 →
    attrY.hyperlinkId = attrZ.hyperlinkId → (attrY.hyperlinkId, uriY) ∈ traced.written (traced.buffer.storageIndex y) →
    (attrZ.hyperlinkId, uriZ) ∈ traced.written (traced.buffer.storageIndex z) → uriY = uriZ

end TracedBuffer

structure Traced (traced : TracedBuffer) : Prop where
  height : 0 < traced.buffer.height
  recorded : ∀ index < traced.buffer.height, ∀ id ∈ (traced.buffer.rows index).getHyperlinks,
    ∃ uri, (id, uri) ∈ traced.written index
  agrees : ∀ index < traced.buffer.height, ∀ link ∈ traced.written index,
    link.1 ∈ (traced.buffer.rows index).getHyperlinks ∧ traced.buffer.hyperlinkMap link.1 = some link.2
  current : traced.buffer.currentAttributes.hyperlinkId ≠ 0 →
    traced.buffer.hyperlinkMap traced.buffer.currentAttributes.hyperlinkId = some traced.openUri

theorem traced_uris_agree (isTraced : Traced traced) : traced.UrisAgree := by
  have referenced : ∀ y column attr, (traced.buffer.getRow y).attr.atPosition 16 column = some attr →
    attr.hyperlinkId ≠ 0 → attr.hyperlinkId ∈ (traced.buffer.getRow y).getHyperlinks := by
    intro y column attr isAttr isLink
    obtain ⟨run, isRun, isValue⟩ := Option.map_eq_some_iff.mp isAttr
    exact (mem_get_hyperlinks _ _).mpr ⟨isLink, run, mem_of_getElem? isRun, by rw [isValue]⟩
  have inside : ∀ y, traced.buffer.storageIndex y < traced.buffer.height := storage_index_lt traced.buffer isTraced.height
  constructor
  · intro y column attr isAttr isLink
    exact ⟨isTraced.recorded _ (inside y) _ (referenced y column attr isAttr isLink),
      fun uri link => (isTraced.agrees _ (inside y) _ link).2⟩
  · intro y z columnY columnZ attrY attrZ uriY uriZ _ _ _ same linkY linkZ
    have first := (isTraced.agrees _ (inside y) _ linkY).2
    have second := (isTraced.agrees _ (inside z) _ linkZ).2
    rw [same, second] at first
    exact (Option.some.inj first).symm

variable {traced : TracedBuffer}

section

variable (env : Environment) (hash : TextBuffer.UriHash)

theorem traced_construct {width height : Nat} (plain : attributes.hyperlinkId = 0) :
    Traced (TracedBuffer.construct width height attributes) := by
  refine ⟨Nat.lt_of_lt_of_le Nat.zero_lt_one (Nat.le_max_right height 1), fun index _ id member => ?_,
    fun _ _ _ none => (not_mem_nil none).elim, fun isLink => absurd plain isLink⟩
  obtain ⟨isLink, run, isRun, isId⟩ := (mem_get_hyperlinks _ _).mp member
  rw [mem_singleton.mp isRun] at isId
  exact absurd (isId.symm.trans plain) isLink

theorem add_hyperlink_traced (isTraced : Traced traced)
    (unshared : TracedBuffer.Unshared hash traced.buffer (.addHyperlink uri params)) :
    Traced (traced.perform env hash (.addHyperlink uri params)) := by
  obtain ⟨ids, next, frame⟩ := get_hyperlink_id_frame hash traced.buffer uri params
  have added : traced.buffer.addHyperlink hash uri params = { traced.buffer with
        hyperlinkCustomIdMap := ids
        currentHyperlinkId := next
        currentAttributes := traced.buffer.currentAttributes.setHyperlinkId (getHyperlinkId hash traced.buffer uri params).2
        hyperlinkMap := update traced.buffer.hyperlinkMap (getHyperlinkId hash traced.buffer uri params).2
          (some uri) } := by
    rw [addHyperlink, addHyperlinkToMap, frame]
  rw [TracedBuffer.perform, LinkOperation.perform, added]
  rw [TracedBuffer.Unshared] at unshared
  generalize (getHyperlinkId hash traced.buffer uri params).2 = assigned at *
  refine ⟨isTraced.height, isTraced.recorded, fun index inside link member => ?_, fun _ => update_self _ _ _⟩
  obtain ⟨referenced, agrees⟩ := isTraced.agrees index inside link member
  refine ⟨referenced, ?_⟩
  by_cases same : link.1 = assigned
  · have old := unshared index inside (same ▸ referenced)
    rw [getHyperlinkUriFromId, ← same, agrees] at old
    simp only [same, update_self]
    exact old.symm
  · simp only [update_of_ne same]
    exact agrees

theorem write_traced (isTraced : Traced traced) : Traced (traced.perform env hash (.write insertMode y state)) := by
  obtain ⟨buffer, openUri, written⟩ := traced
  have old : AllValues (fun attr => attr.hyperlinkId ≠ 0 → attr.hyperlinkId ∈ (buffer.getRow y).getHyperlinks ∨
      attr.hyperlinkId = buffer.currentAttributes.hyperlinkId) (buffer.getRow y).attr.runs :=
    fun run member isLink => Or.inl ((mem_get_hyperlinks _ _).mpr ⟨isLink, run, member, rfl⟩)
  obtain ⟨row, watermark, scratchpad, all, isWritten⟩ := write_rows env hash insertMode y state
    (fun none => absurd rfl none) (fun _ => Or.inr rfl) old
  have inside := storage_index_lt buffer isTraced.height y
  simp only [TracedBuffer.perform, isWritten]
  refine ⟨isTraced.height, fun index bound id member => ?_, fun index bound link member => ?_, isTraced.current⟩
  · by_cases same : index = buffer.storageIndex y
    · simp only [same, update_self] at member ⊢
      obtain ⟨isLink, run, isRun, isId⟩ := (mem_get_hyperlinks _ _).mp member
      have known : ∃ uri, (id, uri) ∈ (buffer.currentAttributes.hyperlinkId, openUri) :: written (buffer.storageIndex y) := by
        rcases all run isRun (isId ▸ isLink) with before | isCurrent
        · obtain ⟨uri, link⟩ := isTraced.recorded _ inside _ before
          exact ⟨uri, mem_cons_of_mem _ (isId ▸ link)⟩
        · refine ⟨openUri, ?_⟩
          rw [← isId, isCurrent]
          exact mem_cons_self
      obtain ⟨uri, link⟩ := known
      exact ⟨uri, mem_filter.mpr ⟨link, contains_iff_mem.mpr member⟩⟩
    · simp only [update_of_ne same] at member ⊢
      exact isTraced.recorded index bound id member
  · by_cases same : index = buffer.storageIndex y
    · simp only [same, update_self] at member ⊢
      obtain ⟨known, referenced⟩ := mem_filter.mp member
      have referenced := contains_iff_mem.mp referenced
      refine ⟨referenced, ?_⟩
      rcases mem_cons.mp known with isCurrent | before
      · rw [isCurrent] at referenced ⊢
        exact isTraced.current ((mem_get_hyperlinks _ _).mp referenced).1
      · exact (isTraced.agrees _ inside link before).2
    · simp only [update_of_ne same] at member ⊢
      exact isTraced.agrees index bound link member

theorem increment_traced (isTraced : Traced traced)
    (needed : ¬ traced.buffer.Obsolete traced.buffer.currentAttributes.hyperlinkId) :
    Traced (traced.perform env hash (.incrementCircularBuffer eraseColor)) := by
  obtain ⟨buffer, openUri, written⟩ := traced
  have plain := erase_attributes_plain eraseColor buffer
  obtain ⟨height, rows, currentAttributes, hyperlinkMap⟩ := increment_spec buffer (buffer.getEraseAttributes eraseColor)
  simp only [TracedBuffer.perform, LinkOperation.perform]
  generalize buffer.incrementCircularBuffer (buffer.getEraseAttributes eraseColor) = next at *
  refine ⟨by rw [height]; exact isTraced.height, fun index bound id member => ?_, fun index bound link member => ?_, ?_⟩
  · simp only [height] at bound
    simp only [rows] at member
    by_cases same : index = buffer.storageIndex 0
    · rw [same, update_self] at member
      obtain ⟨isLink, run, isRun, isId⟩ := (mem_get_hyperlinks _ _).mp member
      rw [mem_singleton.mp isRun] at isId
      exact absurd (isId.symm.trans plain) isLink
    · rw [update_of_ne same] at member
      simp only [update_of_ne same]
      exact isTraced.recorded index bound id member
  · simp only [height] at bound
    by_cases same : index = buffer.storageIndex 0
    · simp only [same, update_self] at member
      cases member
    simp only [update_of_ne same] at member
    obtain ⟨referenced, agrees⟩ := isTraced.agrees index bound link member
    simp only [rows, update_of_ne same]
    refine ⟨referenced, ?_⟩
    rw [hyperlinkMap, if_neg (referenced_not_obsolete bound same referenced)]
    exact agrees
  · simp only [currentAttributes, hyperlinkMap, if_neg needed]
    exact isTraced.current

theorem operation_traced (isTraced : Traced traced)
    (unshared : TracedBuffer.Unshared hash traced.buffer operation) : Traced (traced.perform env hash operation) := by
  cases operation with
  | addHyperlink uri params => exact add_hyperlink_traced env hash isTraced unshared
  | endHyperlink => exact { isTraced with current := fun isLink => absurd rfl isLink }
  | write insertMode y state => exact write_traced env hash isTraced
  | incrementCircularBuffer eraseColor => exact increment_traced env hash isTraced unshared

theorem perform_buffer (traced : TracedBuffer) (operation : LinkOperation) :
    (traced.perform env hash operation).buffer = operation.perform env hash traced.buffer := by
  cases operation <;> rfl

theorem run_traced (traced : TracedBuffer) (isTraced : Traced traced)
    (unshared : TracedBuffer.AllUnshared env hash traced.buffer operations) : Traced (traced.run env hash operations) := by
  induction operations generalizing traced with
  | nil => exact isTraced
  | cons operation rest ih =>
    refine ih _ (operation_traced env hash isTraced unshared.1) ?_
    rw [perform_buffer]
    exact unshared.2

end

theorem hyperlink_uris_agree (env : Environment) (hash : TextBuffer.UriHash) (width height : Nat) (attributes : TextAttribute)
    (plain : attributes.hyperlinkId = 0) (operations : List LinkOperation)
    (unshared : TracedBuffer.AllUnshared env hash (TextBuffer.construct width height attributes) operations) :
    ((TracedBuffer.construct width height attributes).run env hash operations).UrisAgree :=
  traced_uris_agree (run_traced env hash _ (traced_construct plain) unshared)

theorem hyperlink_uris_agree_two_links : ((TracedBuffer.construct 2 2 {}).run graphemeEnvironment id
      [.addHyperlink [0x75] [], .write false 0 ⟨[0x61], 0, 2, 0, 0, 0⟩, .addHyperlink [0x76] [0x69],
        .write true 0 ⟨[0x62], 0, 2, 0, 0, 0⟩, .addHyperlink [0x76] [0x69], .write false 1 ⟨[0x63], 0, 2, 0, 0, 0⟩,
        .incrementCircularBuffer false]).UrisAgree :=
  hyperlink_uris_agree graphemeEnvironment id 2 2 {} rfl _ (by decide +kernel)

section

variable (env : Environment) (hash : TextBuffer.UriHash)

theorem anonymous_link (traced : TracedBuffer) (uri : List WChar) :
    traced.perform env hash (.addHyperlink uri []) = ⟨{ traced.buffer with
          hyperlinkMap := update traced.buffer.hyperlinkMap traced.buffer.currentHyperlinkId (some uri)
          currentHyperlinkId := nextHyperlinkId traced.buffer.currentHyperlinkId
          currentAttributes := traced.buffer.currentAttributes.setHyperlinkId traced.buffer.currentHyperlinkId },
        uri, traced.written⟩ := rfl

theorem anonymous_links (uri : List WChar) (count : Nat) (traced : TracedBuffer)
    (small : traced.buffer.currentHyperlinkId + count ≤ 65535) :
    ∃ map attributes openUri, traced.run env hash (replicate count (.addHyperlink uri [])) = ⟨{ traced.buffer with
          hyperlinkMap := map
          currentHyperlinkId := traced.buffer.currentHyperlinkId + count
          currentAttributes := attributes },
        openUri, traced.written⟩ := by
  induction count generalizing traced with
  | zero => exact ⟨_, _, _, rfl⟩
  | succ count ih =>
    have next : nextHyperlinkId traced.buffer.currentHyperlinkId = traced.buffer.currentHyperlinkId + 1 := by
      rw [nextHyperlinkId, Nat.mod_eq_of_lt (by omega), if_neg (by omega)]
    rw [replicate_succ, TracedBuffer.run, foldl_cons, anonymous_link, next]
    obtain ⟨map, attributes, openUri, rest⟩ := ih
      ⟨{ traced.buffer with
          hyperlinkMap := update traced.buffer.hyperlinkMap traced.buffer.currentHyperlinkId (some uri)
          currentHyperlinkId := traced.buffer.currentHyperlinkId + 1
          currentAttributes := traced.buffer.currentAttributes.setHyperlinkId traced.buffer.currentHyperlinkId },
        uri, traced.written⟩ (by simp only; omega)
    refine ⟨map, attributes, openUri, ?_⟩
    rw [TracedBuffer.run] at rest
    rw [rest]
    simp [Nat.add_assoc, Nat.add_comm 1 count]

-- The counter passes all ids and gives the first one to another URI.
theorem anonymous_links_overflow (uri : List WChar) (second : traced.buffer.currentHyperlinkId = 2) :
    ∃ map attributes openUri, traced.run env hash (replicate 65535 (.addHyperlink uri [])) = ⟨{ traced.buffer with
          hyperlinkMap := update map 1 (some uri)
          currentHyperlinkId := 2
          currentAttributes := attributes },
        openUri, traced.written⟩ := by
  obtain ⟨map, attributes, openUri, before⟩ := anonymous_links env hash uri 65533 traced (by omega)
  have split : replicate 65535 (LinkOperation.addHyperlink uri []) =
      replicate 65533 (.addHyperlink uri []) ++ [.addHyperlink uri [], .addHyperlink uri []] := by
    rw [show [LinkOperation.addHyperlink uri [], .addHyperlink uri []] = replicate 2 (.addHyperlink uri []) from rfl,
      replicate_append_replicate]
  rw [TracedBuffer.run] at before
  rw [TracedBuffer.run, split, foldl_append, before, second, foldl_cons, anonymous_link, foldl_cons]
  dsimp only
  exact ⟨_, _, _, rfl⟩

end

theorem hyperlink_id_reused : ¬ ((TracedBuffer.construct 2 1 {}).run graphemeEnvironment id
      ([.addHyperlink [0x75] [], .write false 0 ⟨[0x61], 0, 2, 0, 0, 0⟩] ++
        replicate 65535 (.addHyperlink [0x76] []))).UrisAgree := by
  intro agree
  obtain ⟨first, isFirst⟩ : ∃ first, first = (TracedBuffer.construct 2 1 {}).run graphemeEnvironment id
      [.addHyperlink [0x75] [], .write false 0 ⟨[0x61], 0, 2, 0, 0, 0⟩] := ⟨_, rfl⟩
  have cell : (first.buffer.getRow 0).attr.atPosition 16 0 = some { hyperlinkId := 1 } := by
    rw [isFirst]
    decide +kernel
  have written : (1, [0x75]) ∈ first.written (first.buffer.storageIndex 0) := by
    rw [isFirst]
    decide +kernel
  have second : first.buffer.currentHyperlinkId = 2 := by
    rw [isFirst]
    decide +kernel
  obtain ⟨map, attributes, openUri, after⟩ := anonymous_links_overflow graphemeEnvironment id [0x76] second
  have joined : (TracedBuffer.construct 2 1 {}).run graphemeEnvironment id
      ([.addHyperlink [0x75] [], .write false 0 ⟨[0x61], 0, 2, 0, 0, 0⟩] ++ replicate 65535 (.addHyperlink [0x76] [])) =
      first.run graphemeEnvironment id (replicate 65535 (.addHyperlink [0x76] [])) := by
    rw [isFirst, TracedBuffer.run, TracedBuffer.run, TracedBuffer.run, foldl_append]
  rw [joined, after] at agree
  have uri := (agree.cells 0 0 { hyperlinkId := 1 } cell (by decide)).2 [0x75] written
  rw [getHyperlinkUriFromId] at uri
  simp only [update_self] at uri
  exact absurd uri (by decide)

end Cogterm.Buffer
