import Mathlib.Data.List.Induction
import Mathlib.Data.List.Nodup
import JsrD10f.WakelockBlocker

/-!
# The list of blocked wake locks

The settings page gets the tags of all wake locks from the power service as one
text with a bar between two tags, and stores the ones that the user has marked in
the same way.  The service splits the stored text again, and so does the page when
it is opened the next time.  Tags are chosen by applications.

A tag with a bar comes out of the text as several tags, and the page has no row for
it.  Java drops the empty parts at the end of a split text, so the empty tag is lost
where it stands last.  `blocked_round_trip_iff` says that nothing else goes wrong.
-/

namespace PowerManager

variable {α : Type}

/-! ## Texts with bars -/

/-- A `HashSet`, or the keys of a `HashMap`, are listed in an order of their own. -/
structure KeyOrder where
  keys : List (List Char) → List (List Char)
  perm : ∀ l, (keys l).Perm l

/-- The loops of `getSeenWakeLocks` and `save`.  Each name that is kept is appended
with a bar, and the last bar is deleted. -/
def joinBars (keep : List Char → Bool) (names : List (List Char)) : List Char :=
  let buffer := names.foldl
    (fun buffer name => if keep name then buffer ++ (name ++ ['|']) else buffer) []
  if 0 < buffer.length then buffer.take (buffer.length - 1) else buffer

/-- The parts of a list from the settings, as all three readers make them. -/
def parts (list : Option (List Char)) : List (List Char) :=
  match list with
  | none => []
  | some text => if text.length ≠ 0 then splitBars text else []

def Service.getSeenWakeLocks (s : Service α) (order : KeyOrder) : List Char :=
  joinBars (fun _ => true) (order.keys s.seenWakeLocks)

/-! ## The settings page -/

/-- `mWakeLockState`, with its keys in the order of their first `put`. -/
structure StateMap where
  keys : List (List Char)
  state : List Char → Bool

def StateMap.put (m : StateMap) (name : List Char) (checked : Bool) : StateMap where
  keys := if m.keys.contains name then m.keys else m.keys ++ [name]
  state := Function.update m.state name checked

/-- The fields of `WakeLockBlocker` that depend on the tags.  The rows are those of
`mSeenWakeLocks`; their order does not matter here. -/
structure Page where
  seenWakeLocks : List (List Char)
  blockedWakeLocks : List (List Char)
  wakeLockState : StateMap

/-- A page with a new `mWakeLockState`. -/
def Page.new : Page :=
  ⟨[], [], ⟨[], fun _ => false⟩⟩

/-- A turn of the loop in `updateSeenWakeLocksList`. -/
def Page.addSeen (p : Page) (part : List Char) : Page :=
  { p with
    seenWakeLocks := p.seenWakeLocks ++ [part]
    wakeLockState := p.wakeLockState.put part false }

def Page.updateSeenWakeLocksList (p : Page) (seenWakeLocks : Option (List Char)) : Page :=
  (parts seenWakeLocks).foldl Page.addSeen { p with seenWakeLocks := [] }

/-- A turn of the loop in `updateBlockedWakeLocksList`.  A tag that is blocked but not
seen gets a row. -/
def Page.addBlocked (p : Page) (part : List Char) : Page where
  blockedWakeLocks := p.blockedWakeLocks ++ [part]
  seenWakeLocks :=
    if p.seenWakeLocks.contains part then p.seenWakeLocks else p.seenWakeLocks ++ [part]
  wakeLockState := p.wakeLockState.put part true

def Page.updateBlockedWakeLocksList (p : Page) (blockedWakelockList : Option (List Char)) :
    Page :=
  (parts blockedWakelockList).foldl Page.addBlocked { p with blockedWakeLocks := [] }

/-- `onActivityCreated`, which starts from a new page. -/
def openPage (seenWakeLocks blockedWakelockList : Option (List Char)) : Page :=
  (Page.new.updateSeenWakeLocksList seenWakeLocks).updateBlockedWakeLocksList blockedWakelockList

/-- The user sets every row to whether it is one of some tags; `onCheckedChanged` puts
the state of the row. -/
def Page.mark (p : Page) (tags : List (List Char)) : Page :=
  { p with wakeLockState :=
      p.seenWakeLocks.foldl (fun m row => m.put row (tags.contains row)) p.wakeLockState }

/-- The row of a tag is marked. -/
def Page.Marks (p : Page) (tag : List Char) : Prop :=
  tag ∈ p.wakeLockState.keys ∧ p.wakeLockState.state tag = true

/-- `save`: the text that is stored. -/
def Page.save (p : Page) (order : KeyOrder) : List Char :=
  joinBars p.wakeLockState.state (order.keys p.wakeLockState.keys)

/-! ## The round trip -/

/-- The list that is stored after the user has opened the page and marked some tags. -/
def storedList (setOrder mapOrder : KeyOrder) (s : Service α) (old : Option (List Char))
    (tags : List (List Char)) : List Char :=
  ((openPage (some (s.getSeenWakeLocks setOrder)) old).mark tags).save mapOrder

/-- The service blocks the tags, and every later page marks them, and no others. -/
structure RoundTrip (setOrder mapOrder : KeyOrder) (s : Service α) (old : Option (List Char))
    (tags : List (List Char)) : Prop where
  blocked : ∀ tag,
    tag ∈ (s.setBlockedWakeLocks (some (storedList setOrder mapOrder s old tags))).blockedWakeLocks
      ↔ tag ∈ tags
  reopened : ∀ seen tag,
    (openPage seen (some (storedList setOrder mapOrder s old tags))).Marks tag ↔ tag ∈ tags

/-- An empty part with a part behind it that is not empty. -/
def InnerEmpty (l : List (List Char)) : Prop :=
  ∃ before after part, l = before ++ [] :: after ∧ part ∈ after ∧ part ≠ []

/-- The page has an empty row: Java keeps an empty part of the text from the service, or
of the text that was stored before. -/
def ShowsEmpty (names : List (List Char)) (old : Option (List Char)) : Prop :=
  InnerEmpty (names.flatMap (List.splitOn '|')) ∨ ∃ text ∈ old, InnerEmpty (text.splitOn '|')

/-- The names in the order in which `save` comes to them, without those that are not
marked. -/
def markedKeys (setOrder mapOrder : KeyOrder) (s : Service α) (old : Option (List Char))
    (tags : List (List Char)) : List (List Char) :=
  (mapOrder.keys (openPage (some (s.getSeenWakeLocks setOrder)) old).wakeLockState.keys).filter
    tags.contains

/-- The tags have no bars.  If the empty tag is one of them, there is a row for it, and
`save` does not come to it last. -/
structure Transferable (setOrder mapOrder : KeyOrder) (s : Service α) (old : Option (List Char))
    (tags : List (List Char)) : Prop where
  noBar : ∀ tag ∈ tags, '|' ∉ tag
  shown : [] ∈ tags → ShowsEmpty (setOrder.keys s.seenWakeLocks) old
  notLast : (markedKeys setOrder mapOrder s old tags).getLast? ≠ some []

/-! ## Joining and splitting -/

theorem foldl_bars (keep : List Char → Bool) (names : List (List Char)) (buffer : List Char) :
    names.foldl (fun buffer name => if keep name then buffer ++ (name ++ ['|']) else buffer) buffer =
      buffer ++ (names.filter keep).flatMap (· ++ ['|']) := by
  induction names generalizing buffer with
  | nil => simp
  | cons name names ih =>
      rw [List.foldl_cons, ih]
      cases hkeep : keep name with
      | false => simp [hkeep]
      | true => simp [hkeep]

theorem flatMap_bars {names : List (List Char)} (h : names ≠ []) :
    names.flatMap (· ++ ['|']) = ['|'].intercalate names ++ ['|'] := by
  induction names with
  | nil => exact absurd rfl h
  | cons name names ih =>
      cases names with
      | nil => simp
      | cons next rest =>
          rw [List.flatMap_cons, ih (List.cons_ne_nil _ _), List.intercalate_cons_cons]
          simp only [List.append_assoc]

/-- The names that are kept, with a bar between two of them. -/
theorem joinBars_eq (keep : List Char → Bool) (names : List (List Char)) :
    joinBars keep names = ['|'].intercalate (names.filter keep) := by
  unfold joinBars
  rw [foldl_bars, List.nil_append]
  generalize names.filter keep = kept
  rcases eq_or_ne kept [] with rfl | hkept
  · rfl
  · simp [flatMap_bars hkept]

/-- A text of joined names is split where the names are, and where they have bars. -/
theorem splitOn_intercalate_bars {names : List (List Char)} (h : names ≠ []) :
    (['|'].intercalate names).splitOn '|' = names.flatMap (List.splitOn '|') := by
  induction names with
  | nil => exact absurd rfl h
  | cons name names ih =>
      cases names with
      | nil => simp
      | cons next rest =>
          rw [List.intercalate_cons_cons, List.append_assoc, List.singleton_append,
            List.splitOn_append_cons_self, ih (List.cons_ne_nil _ _)]
          rfl

theorem bar_notMem_of_mem_splitOn {text part : List Char} (h : part ∈ text.splitOn '|') :
    '|' ∉ part := by
  induction text generalizing part with
  | nil =>
      simp at h
      simp [h]
  | cons c text ih =>
      rw [List.splitOn_cons_eq_if_modifyHead] at h
      split at h
      · rcases List.mem_cons.mp h with rfl | hpart
        · exact List.not_mem_nil
        · exact ih hpart
      · rename_i hc
        cases hsplit : text.splitOn '|' with
        | nil => exact absurd hsplit (List.splitOn_ne_nil _ _)
        | cons first rest =>
            rw [hsplit] at h ih
            rcases List.mem_cons.mp h with rfl | hpart
            · intro hmem
              rcases List.mem_cons.mp hmem with hbar | hmem
              · exact hc (beq_iff_eq.mpr hbar.symm)
              · exact ih List.mem_cons_self hmem
            · exact ih (List.mem_cons_of_mem _ hpart)

/-- The last part, and where the empty part is then. -/
theorem innerEmpty_concat {l : List (List Char)} {last : List Char} :
    InnerEmpty (l ++ [last]) ↔ (last ≠ [] ∧ [] ∈ l) ∨ InnerEmpty l := by
  constructor
  · rintro ⟨before, after, part, hl, hpart, hne⟩
    rcases List.eq_nil_or_concat after with rfl | ⟨after, x, rfl⟩
    · exact absurd hpart List.not_mem_nil
    · rw [List.concat_eq_append] at hl hpart
      have hends : l ++ [last] = (before ++ [] :: after) ++ [x] := by
        rw [hl, List.append_assoc, List.cons_append]
      obtain ⟨rfl, hlast⟩ := List.append_inj' hends rfl
      cases hlast
      rcases List.mem_append.mp hpart with hafter | hlast
      · exact .inr ⟨before, after, part, rfl, hafter, hne⟩
      · rw [List.mem_singleton.mp hlast] at hne
        exact .inl ⟨hne, by simp⟩
  · rintro (⟨hlast, hmem⟩ | ⟨before, after, part, rfl, hpart, hne⟩)
    · obtain ⟨before, after, rfl⟩ := List.append_of_mem hmem
      exact ⟨before, after ++ [last], last, by simp, by simp, hlast⟩
    · exact ⟨before, after ++ [last], part, by simp, List.mem_append_left _ hpart, hne⟩

theorem InnerEmpty.mem {l : List (List Char)} (h : InnerEmpty l) : [] ∈ l := by
  obtain ⟨before, after, part, rfl, -⟩ := h
  simp

/-- What is left of some parts without the empty ones at the end. -/
theorem mem_dropTrailing_iff (l : List (List Char)) (part : List Char) :
    part ∈ (l.reverse.dropWhile List.isEmpty).reverse ↔
      (part ≠ [] ∧ part ∈ l) ∨ (part = [] ∧ InnerEmpty l) := by
  rw [List.mem_reverse]
  induction l using List.reverseRecOn with
  | nil => simp [InnerEmpty]
  | append_singleton l last ih =>
      rw [List.reverse_append, List.reverse_singleton, List.singleton_append, innerEmpty_concat]
      rcases eq_or_ne last [] with rfl | hlast
      · rw [List.dropWhile_cons_of_pos rfl, ih]
        rcases eq_or_ne part [] with rfl | hpart
        · simp
        · simp [hpart]
      · have hfull : last.isEmpty = false := by simpa using hlast
        rw [List.dropWhile_cons_of_neg (by simp [hfull])]
        simp only [List.mem_cons, List.mem_reverse, List.mem_append, List.not_mem_nil, or_false]
        rcases eq_or_ne part [] with rfl | hpart
        · simp only [hlast.symm, false_or, ne_eq, not_true_eq_false, false_and, hlast,
            not_false_eq_true, true_and]
          exact (or_iff_left_of_imp InnerEmpty.mem).symm
        · simp [hpart, or_comm]

theorem parts_some (text : List Char) : parts (some text) = splitBars text := by
  simp only [parts]
  split
  · rfl
  · rename_i hempty
    rw [List.length_eq_zero_iff.mp (not_not.mp hempty)]
    rfl

/-- What a reader finds in a text. -/
theorem mem_parts_some_iff (text part : List Char) :
    part ∈ parts (some text) ↔
      (part ≠ [] ∧ part ∈ text.splitOn '|') ∨ (part = [] ∧ InnerEmpty (text.splitOn '|')) := by
  rw [parts_some, splitBars, mem_dropTrailing_iff]

/-- No reader finds a part with a bar. -/
theorem bar_notMem_of_mem_parts {list : Option (List Char)} {part : List Char}
    (h : part ∈ parts list) : '|' ∉ part := by
  cases list with
  | none => cases h
  | some text =>
      rcases (mem_parts_some_iff text part).mp h with ⟨-, hpart⟩ | ⟨rfl, -⟩
      · exact bar_notMem_of_mem_splitOn hpart
      · exact List.not_mem_nil

/-- What a reader finds in a text that was joined from names. -/
theorem mem_parts_joinBars_iff (keep : List Char → Bool) (names : List (List Char))
    (part : List Char) :
    part ∈ parts (some (joinBars keep names)) ↔
      (part ≠ [] ∧ part ∈ (names.filter keep).flatMap (List.splitOn '|')) ∨
      (part = [] ∧ InnerEmpty ((names.filter keep).flatMap (List.splitOn '|'))) := by
  rw [mem_parts_some_iff, joinBars_eq]
  rcases eq_or_ne (names.filter keep) [] with hnone | hsome
  · -- the empty text is one empty part
    have hempty : ¬ InnerEmpty [[]] := by
      rw [← List.nil_append [[]], innerEmpty_concat]
      simp [InnerEmpty]
    have hnil : ¬ InnerEmpty [] := fun h => absurd h.mem List.not_mem_nil
    rw [hnone]
    simp [hempty, hnil]
  · rw [splitOn_intercalate_bars hsome]

/-! ## The map of the page -/

/-- Some names are put one after the other. -/
def StateMap.putAll (m : StateMap) (names : List (List Char)) (checked : List Char → Bool) :
    StateMap :=
  names.foldl (fun m name => m.put name (checked name)) m

theorem StateMap.mem_keys_putAll (m : StateMap) (names : List (List Char))
    (checked : List Char → Bool) (name : List Char) :
    name ∈ (m.putAll names checked).keys ↔ name ∈ m.keys ∨ name ∈ names := by
  induction names generalizing m with
  | nil => simp [putAll]
  | cons first names ih =>
      have hput : name ∈ (m.put first (checked first)).keys ↔ name ∈ m.keys ∨ name = first := by
        unfold put
        split
        · rename_i hold
          rw [List.contains_iff_mem] at hold
          exact (or_iff_left_of_imp fun h => h ▸ hold).symm
        · simp
      rw [putAll, List.foldl_cons]
      refine (ih (m.put first (checked first))).trans ?_
      rw [hput, List.mem_cons, or_assoc]

theorem StateMap.state_putAll (m : StateMap) (names : List (List Char))
    (checked : List Char → Bool) (name : List Char) :
    (m.putAll names checked).state name =
      if name ∈ names then checked name else m.state name := by
  induction names generalizing m with
  | nil => simp [putAll]
  | cons first names ih =>
      rw [putAll, List.foldl_cons]
      refine (ih (m.put first (checked first))).trans ?_
      by_cases hrest : name ∈ names
      · simp [hrest]
      · rcases eq_or_ne name first with rfl | hne
        · simp [hrest, put]
        · simp [hrest, hne, put]

theorem StateMap.nodup_putAll {m : StateMap} (h : m.keys.Nodup) (names : List (List Char))
    (checked : List Char → Bool) : (m.putAll names checked).keys.Nodup := by
  induction names generalizing m with
  | nil => exact h
  | cons first names ih =>
      have hput : (m.put first (checked first)).keys.Nodup := by
        unfold put
        split
        · exact h
        · rename_i hnew
          refine List.nodup_append.mpr ⟨h, List.nodup_singleton first, ?_⟩
          intro name hname other hother heq
          rw [heq, List.mem_singleton.mp hother] at hname
          exact hnew (List.contains_iff_mem.mpr hname)
      exact ih hput

theorem Page.foldl_addSeen (l : List (List Char)) (p : Page) :
    l.foldl Page.addSeen p =
      ⟨p.seenWakeLocks ++ l, p.blockedWakeLocks, p.wakeLockState.putAll l fun _ => false⟩ := by
  induction l generalizing p with
  | nil => simp [StateMap.putAll]
  | cons part l ih =>
      rw [List.foldl_cons, ih]
      simp [addSeen, StateMap.putAll]

theorem Page.updateSeenWakeLocksList_eq (p : Page) (seen : Option (List Char)) :
    p.updateSeenWakeLocksList seen =
      ⟨parts seen, p.blockedWakeLocks, p.wakeLockState.putAll (parts seen) fun _ => false⟩ := by
  rw [updateSeenWakeLocksList, foldl_addSeen, List.nil_append]

theorem Page.foldl_addBlocked (l : List (List Char)) (p : Page) :
    (l.foldl Page.addBlocked p).wakeLockState = p.wakeLockState.putAll l (fun _ => true) ∧
      ∀ name, name ∈ (l.foldl Page.addBlocked p).seenWakeLocks ↔
        name ∈ p.seenWakeLocks ∨ name ∈ l := by
  induction l generalizing p with
  | nil => simp [StateMap.putAll]
  | cons part l ih =>
      obtain ⟨hmap, hrows⟩ := ih (p.addBlocked part)
      refine ⟨hmap, fun name => (hrows name).trans ?_⟩
      have hrow : name ∈ (p.addBlocked part).seenWakeLocks ↔
          name ∈ p.seenWakeLocks ∨ name = part := by
        unfold addBlocked
        dsimp only
        split
        · rename_i hold
          rw [List.contains_iff_mem] at hold
          exact (or_iff_left_of_imp fun h => h ▸ hold).symm
        · simp
      rw [hrow, List.mem_cons, or_assoc]

/-- A page that was opened has a row and a state for every part of the two texts, and
marks the parts of the second. -/
theorem openPage_spec (seen old : Option (List Char)) :
    (openPage seen old).wakeLockState.keys.Nodup ∧
      (∀ name, name ∈ (openPage seen old).wakeLockState.keys ↔
        name ∈ parts seen ∨ name ∈ parts old) ∧
      (∀ name, name ∈ (openPage seen old).seenWakeLocks ↔
        name ∈ parts seen ∨ name ∈ parts old) ∧
      ∀ name, (openPage seen old).wakeLockState.state name = decide (name ∈ parts old) := by
  rw [openPage, Page.updateSeenWakeLocksList_eq, Page.updateBlockedWakeLocksList]
  obtain ⟨hmap, hrows⟩ := Page.foldl_addBlocked (parts old)
    ⟨parts seen, [], Page.new.wakeLockState.putAll (parts seen) fun _ => false⟩
  rw [hmap]
  refine ⟨?_, ?_, hrows, ?_⟩
  · have hnew : Page.new.wakeLockState.keys.Nodup := List.nodup_nil
    exact StateMap.nodup_putAll (StateMap.nodup_putAll hnew _ _) _ _
  · intro name
    rw [StateMap.mem_keys_putAll, StateMap.mem_keys_putAll]
    simp [Page.new]
  · intro name
    rw [StateMap.state_putAll, StateMap.state_putAll]
    by_cases hold : name ∈ parts old
    · simp [hold]
    · simp [hold, Page.new]

/-- Every later page marks the parts of the stored text. -/
theorem marks_openPage_iff (seen old : Option (List Char)) (name : List Char) :
    (openPage seen old).Marks name ↔ name ∈ parts old := by
  obtain ⟨-, hkeys, -, hstate⟩ := openPage_spec seen old
  unfold Page.Marks
  rw [hkeys, hstate, decide_eq_true_eq]
  exact ⟨fun h => h.2, fun h => ⟨.inr h, h⟩⟩

theorem StateMap.keys_putAll {m : StateMap} {names : List (List Char)}
    (h : ∀ name ∈ names, name ∈ m.keys) (checked : List Char → Bool) :
    (m.putAll names checked).keys = m.keys := by
  induction names generalizing m with
  | nil => rfl
  | cons first names ih =>
      have hput : (m.put first (checked first)).keys = m.keys :=
        if_pos (List.contains_iff_mem.mpr (h first List.mem_cons_self))
      have hrest : ∀ name ∈ names, name ∈ (m.put first (checked first)).keys := by
        intro name hname
        rw [hput]
        exact h name (List.mem_cons_of_mem _ hname)
      exact (ih hrest).trans hput

/-- The stored text has the names that are marked. -/
theorem storedList_eq (setOrder mapOrder : KeyOrder) (s : Service α) (old : Option (List Char))
    (tags : List (List Char)) :
    storedList setOrder mapOrder s old tags =
      joinBars (fun _ => true) (markedKeys setOrder mapOrder s old tags) := by
  unfold storedList markedKeys
  generalize hpage : openPage (some (s.getSeenWakeLocks setOrder)) old = page
  obtain ⟨-, hkeys, hrows, -⟩ := openPage_spec (some (s.getSeenWakeLocks setOrder)) old
  rw [hpage] at hkeys hrows
  have hrow (name : List Char) : name ∈ page.seenWakeLocks ↔ name ∈ page.wakeLockState.keys :=
    (hrows name).trans (hkeys name).symm
  have hmap : (page.mark tags).wakeLockState =
      page.wakeLockState.putAll page.seenWakeLocks tags.contains := rfl
  rw [Page.save, hmap, StateMap.keys_putAll fun name hname => (hrow name).mp hname, joinBars_eq,
    joinBars_eq, List.filter_true]
  congr 1
  apply List.filter_congr
  intro name hname
  rw [StateMap.state_putAll, if_pos ((hrow name).mpr ((mapOrder.perm _).mem_iff.mp hname))]

theorem mem_markedKeys_iff (setOrder mapOrder : KeyOrder) (s : Service α)
    (old : Option (List Char)) (tags : List (List Char)) (name : List Char) :
    name ∈ markedKeys setOrder mapOrder s old tags ↔
      (name ∈ parts (some (s.getSeenWakeLocks setOrder)) ∨ name ∈ parts old) ∧ name ∈ tags := by
  obtain ⟨-, hkeys, -, -⟩ := openPage_spec (some (s.getSeenWakeLocks setOrder)) old
  rw [markedKeys, List.mem_filter, (mapOrder.perm _).mem_iff, hkeys, List.contains_iff_mem]

theorem nodup_markedKeys (setOrder mapOrder : KeyOrder) (s : Service α)
    (old : Option (List Char)) (tags : List (List Char)) :
    (markedKeys setOrder mapOrder s old tags).Nodup := by
  obtain ⟨hnodup, -, -, -⟩ := openPage_spec (some (s.getSeenWakeLocks setOrder)) old
  exact ((mapOrder.perm _).nodup_iff.mpr hnodup).filter _

/-! ## Which tags are transferred -/

/-- An empty part that occurs once is kept unless it is the last. -/
theorem innerEmpty_iff_of_nodup {l : List (List Char)} (h : l.Nodup) :
    InnerEmpty l ↔ [] ∈ l ∧ l.getLast? ≠ some [] := by
  rcases List.eq_nil_or_concat l with rfl | ⟨l, last, rfl⟩
  · simp [InnerEmpty]
  · rw [List.concat_eq_append] at h ⊢
    rw [innerEmpty_concat, List.getLast?_concat, List.mem_append, List.mem_singleton]
    rcases eq_or_ne last [] with rfl | hlast
    · have hnew : [] ∉ l := by
        intro hmem
        exact (List.nodup_append.mp h).2.2 [] hmem [] (List.mem_singleton.mpr rfl) rfl
      have hinner : ¬ InnerEmpty l := fun hinner => hnew hinner.mem
      simp [hinner]
    · have hne : some last ≠ some [] := fun heq => hlast (Option.some.inj heq)
      simp only [hlast, hlast.symm, hne, ne_eq, not_false_eq_true, true_and, or_false, and_true]
      exact or_iff_left_of_imp InnerEmpty.mem

theorem flatMap_splitOn_of_noBar {l : List (List Char)} (h : ∀ name ∈ l, '|' ∉ name) :
    l.flatMap (List.splitOn '|') = l := by
  induction l with
  | nil => rfl
  | cons name l ih =>
      rw [List.flatMap_cons, List.splitOn_eq_singleton (h name List.mem_cons_self),
        ih fun other hother => h other (List.mem_cons_of_mem _ hother)]
      rfl

/-- What the service and the page find in the stored text. -/
theorem mem_parts_storedList_iff (setOrder mapOrder : KeyOrder) (s : Service α)
    (old : Option (List Char)) (tags : List (List Char)) (part : List Char) :
    part ∈ parts (some (storedList setOrder mapOrder s old tags)) ↔
      part ∈ markedKeys setOrder mapOrder s old tags ∧
        (part = [] → (markedKeys setOrder mapOrder s old tags).getLast? ≠ some []) := by
  have hnoBar : ∀ name ∈ markedKeys setOrder mapOrder s old tags, '|' ∉ name := by
    intro name hname
    rcases ((mem_markedKeys_iff setOrder mapOrder s old tags name).mp hname).1 with hseen | hold
    · exact bar_notMem_of_mem_parts hseen
    · exact bar_notMem_of_mem_parts hold
  rw [storedList_eq, mem_parts_joinBars_iff, List.filter_true, flatMap_splitOn_of_noBar hnoBar,
    innerEmpty_iff_of_nodup (nodup_markedKeys setOrder mapOrder s old tags)]
  rcases eq_or_ne part [] with rfl | hpart
  · simp
  · simp [hpart]

/-- The page has a row for every tag without a bar that the service has seen, but for
an empty one that Java has dropped. -/
theorem mem_parts_getSeenWakeLocks {order : KeyOrder} {s : Service α} {tag : List Char}
    (hseen : tag ∈ s.seenWakeLocks) (hbar : '|' ∉ tag) (hne : tag ≠ []) :
    tag ∈ parts (some (s.getSeenWakeLocks order)) := by
  rw [Service.getSeenWakeLocks, mem_parts_joinBars_iff, List.filter_true]
  refine .inl ⟨hne, List.mem_flatMap.mpr ⟨tag, (order.perm _).mem_iff.mpr hseen, ?_⟩⟩
  rw [List.splitOn_eq_singleton hbar]
  exact List.mem_singleton.mpr rfl

theorem showsEmpty_iff (order : KeyOrder) (s : Service α) (old : Option (List Char)) :
    ShowsEmpty (order.keys s.seenWakeLocks) old ↔
      [] ∈ parts (some (s.getSeenWakeLocks order)) ∨ [] ∈ parts old := by
  have hold : [] ∈ parts old ↔ ∃ text ∈ old, InnerEmpty (text.splitOn '|') := by
    cases old with
    | none => simp [parts]
    | some text => simp [mem_parts_some_iff]
  rw [hold, Service.getSeenWakeLocks, mem_parts_joinBars_iff, List.filter_true, ShowsEmpty]
  simp

/-- **The round trip of blocked tags.**  For tags that the service has seen, the service
blocks exactly the tags that were marked, and the page shows them, exactly if no tag
has a bar and the empty tag, if it is among them, is neither lost on its way to the
page nor the last that is stored. -/
theorem blocked_round_trip_iff (setOrder mapOrder : KeyOrder) (s : Service α)
    (old : Option (List Char)) {tags : List (List Char)}
    (hseen : ∀ tag ∈ tags, tag ∈ s.seenWakeLocks) :
    RoundTrip setOrder mapOrder s old tags ↔ Transferable setOrder mapOrder s old tags := by
  have hstored := mem_parts_storedList_iff setOrder mapOrder s old tags
  have hmarked := mem_markedKeys_iff setOrder mapOrder s old tags
  constructor
  · intro h
    have hall : ∀ tag ∈ tags, tag ∈ parts (some (storedList setOrder mapOrder s old tags)) :=
      fun tag htag => (h.blocked tag).mpr htag
    refine ⟨fun tag htag => bar_notMem_of_mem_parts (hall tag htag), fun hempty => ?_, ?_⟩
    · rw [showsEmpty_iff]
      exact ((hmarked []).mp ((hstored []).mp (hall [] hempty)).1).1
    · intro hlast
      have hempty := ((hmarked []).mp (List.mem_of_getLast? hlast)).2
      exact ((hstored []).mp (hall [] hempty)).2 rfl hlast
  · intro h
    have hparts (tag : List Char) :
        tag ∈ parts (some (storedList setOrder mapOrder s old tags)) ↔ tag ∈ tags := by
      rw [hstored, hmarked]
      constructor
      · rintro ⟨⟨-, htag⟩, -⟩
        exact htag
      · intro htag
        refine ⟨⟨?_, htag⟩, fun _ => h.notLast⟩
        rcases eq_or_ne tag [] with rfl | hne
        · exact (showsEmpty_iff setOrder s old).mp (h.shown htag)
        · exact .inl (mem_parts_getSeenWakeLocks (hseen tag htag) (h.noBar tag htag) hne)
    constructor
    · exact hparts
    · intro seen tag
      rw [marks_openPage_iff]
      exact hparts tag

/-- The order in which the names were put. -/
def insertionOrder : KeyOrder :=
  ⟨id, List.Perm.refl⟩

/-- A service that has seen some tags. -/
def hasSeen (tags : List (List Char)) : Service Unit :=
  { Service.start with seenWakeLocks := tags }

/-- The empty tag between two others, marked together with the last of them. -/
theorem blocked_round_trip_empty :
    (∀ tag ∈ [[], ['b']], tag ∈ (hasSeen [['a'], [], ['b']]).seenWakeLocks) ∧
      RoundTrip insertionOrder insertionOrder (hasSeen [['a'], [], ['b']]) none [[], ['b']] := by
  have hseen : ∀ tag ∈ [[], ['b']], tag ∈ (hasSeen [['a'], [], ['b']]).seenWakeLocks := by
    decide
  refine ⟨hseen, (blocked_round_trip_iff insertionOrder insertionOrder _ none hseen).mpr ?_⟩
  constructor
  · decide
  · intro _
    exact .inl ⟨[['a']], [['b']], ['b'], by decide, by decide, by decide⟩
  · decide

/-- A tag with a bar is not blocked, and neither is the empty tag on its own. -/
theorem blocked_round_trip_bar :
    ¬ RoundTrip insertionOrder insertionOrder (hasSeen [['a', '|', 'b']]) none
        [['a', '|', 'b']] ∧
      ¬ RoundTrip insertionOrder insertionOrder (hasSeen [[]]) none [[]] := by
  constructor
  · intro h
    exact absurd ((h.blocked ['a', '|', 'b']).mpr (by decide)) (by decide)
  · intro h
    exact absurd ((h.blocked []).mpr (by decide)) (by decide)

end PowerManager
