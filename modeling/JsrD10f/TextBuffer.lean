import Mathlib.Data.List.Basic
import Mathlib.Data.List.TakeDrop
import Mathlib.Data.List.Infix

/-!
# Text in fixed buffers

A C string lives at the front of a buffer and ends at the first zero.  Writing
is possible inside the buffer only: a write that would leave it has no result.
Replacing a token in place moves the text behind the token and then copies the
new text in.  Neither step writes a terminator, so the replaced text ends
where it should only when everything behind it is zero already; a buffer that
was cleared before, and tokens that are never shortened, guarantee that.

Replacing two tokens one after the other could meet a token that the first
replacement made.  If the texts put in do not contain the mark that opens a
token, and do not begin with the rest of one, then the order does not matter and
both replacements are one pass, `expand`.
-/

namespace TextBuffer

def nul : Char := '\x00'

/-- The string at the front of a buffer. -/
def cstr (buf : List Char) : List Char :=
  buf.takeWhile (fun c => c != nul)

/-- A cleared buffer of `n` characters with a text at its front. -/
def pad (n : Nat) (s : List Char) : List Char :=
  s ++ List.replicate (n - s.length) nul

/-- The offset of the first occurrence of `ss`. -/
def find (ss : List Char) : List Char → Option Nat
  | [] => if ss = [] then some 0 else none
  | c :: rest => if ss.isPrefixOf (c :: rest) then some 0 else (find ss rest).map (· + 1)

/-- How often `ss` occurs. -/
def occurrences (ss : List Char) : List Char → Nat
  | [] => 0
  | c :: rest => (if ss.isPrefixOf (c :: rest) then 1 else 0) + occurrences ss rest

/-- `memcpy` into the buffer. -/
def memcpy (buf : List Char) (dst : Nat) (text : List Char) : Option (List Char) :=
  if dst + text.length ≤ buf.length then
    some (buf.take dst ++ text ++ buf.drop (dst + text.length))
  else none

/-- `memmove` inside the buffer. -/
def memmove (buf : List Char) (dst src n : Nat) : Option (List Char) :=
  if src + n ≤ buf.length then memcpy buf dst ((buf.drop src).take n) else none

/-- The text with the first `ss` replaced. -/
def replaceFirst (ss text s : List Char) : List Char :=
  match find ss s with
  | some i => s.take i ++ text ++ s.drop (i + ss.length)
  | none => s

/-- One pass that replaces a mark and its key by the text of the key. -/
def expand (mark : Char) (text : Char → Option (List Char)) : List Char → List Char
  | [] => []
  | [c] => [c]
  | c :: key :: rest =>
      if c = mark then
        match text key with
        | some t => t ++ expand mark text rest
        | none => c :: expand mark text (key :: rest)
      else c :: expand mark text (key :: rest)

/-- The table with one key. -/
def single (key : Char) (t : List Char) (c : Char) : Option (List Char) :=
  if c = key then some t else none

/-- The table with two keys. -/
def double (key : Char) (t : List Char) (key' : Char) (t' : List Char) (c : Char) :
    Option (List Char) :=
  if c = key then some t else if c = key' then some t' else none

/-- A text that can stand for a token without making another one. -/
structure Inert (mark key : Char) (t : List Char) : Prop where
  unmarked : mark ∉ t
  long : 2 ≤ t.length
  head : t.head? ≠ some key

theorem double_comm {key key' : Char} (t t' : List Char) (h : key ≠ key') :
    double key t key' t' = double key' t' key t := by
  funext c
  unfold double
  by_cases hk : c = key
  · have hk' : c ≠ key' := fun h' => h (hk.symm.trans h')
    simp [hk, h]
  · simp [hk]

/-! ## The buffer -/

theorem cstr_pad {s : List Char} {n : Nat} (hs : nul ∉ s) (hn : s.length < n) :
    cstr (pad n s) = s := by
  obtain ⟨m, hm⟩ : ∃ m, n - s.length = m + 1 := ⟨n - s.length - 1, by omega⟩
  unfold cstr pad
  rw [List.takeWhile_append_of_pos]
  · rw [hm, List.replicate_succ, List.takeWhile_cons_of_neg (by simp), List.append_nil]
  · intro c hc
    have hne : c ≠ nul := fun h => hs (h ▸ hc)
    simpa using hne

theorem nul_mem_pad {s : List Char} {n : Nat} (hn : s.length < n) : nul ∈ pad n s := by
  unfold pad
  rw [List.mem_append, List.mem_replicate]
  exact Or.inr ⟨by omega, rfl⟩

theorem nul_notMem_cstr (buf : List Char) : nul ∉ cstr buf := by
  intro h
  have hall : (cstr buf).all (fun c => c != nul) = true := List.all_takeWhile
  have hne := List.all_eq_true.mp hall nul h
  simp at hne

/-- A terminated buffer is its string, a zero, and what lies behind. -/
theorem cstr_split {buf : List Char} (h : nul ∈ buf) : ∃ rest, buf = cstr buf ++ nul :: rest := by
  unfold cstr
  induction buf with
  | nil => cases h
  | cons c buf ih =>
      by_cases hc : c = nul
      · subst hc
        exact ⟨buf, by simp⟩
      · have htail : nul ∈ buf := by
          rcases List.mem_cons.mp h with heq | hmem
          · exact absurd heq.symm hc
          · exact hmem
        obtain ⟨rest, hrest⟩ := ih htail
        refine ⟨rest, ?_⟩
        rw [List.takeWhile_cons_of_pos (by simpa using hc), List.cons_append, ← hrest]

/-- A string that has no zero in it, with something behind. -/
theorem cstr_append {s : List Char} (hs : nul ∉ s) (rest : List Char) :
    cstr (s ++ rest) = s ++ cstr rest := by
  unfold cstr
  apply List.takeWhile_append_of_pos
  intro c hc
  have hne : c ≠ nul := fun h => hs (h ▸ hc)
  simpa using hne

/-- Moving the tail and copying the text in: what is between the places stays. -/
theorem memcpy_memmove {buf pre token post tail : List Char} (text : List Char)
    (hbuf : buf = pre ++ token ++ post ++ tail) :
    (memmove buf (pre.length + text.length) (pre.length + token.length) post.length).bind
        (fun buf => memcpy buf pre.length text) =
      if pre.length + text.length + post.length ≤ buf.length then
        some (pre ++ text ++ post ++ buf.drop (pre.length + text.length + post.length))
      else none := by
  have htail : (buf.drop (pre.length + token.length)).take post.length = post := by
    rw [hbuf, List.append_assoc, List.drop_left' (by simp), List.take_left' rfl]
  have hpre : buf.take pre.length = pre := by
    rw [hbuf, List.append_assoc, List.append_assoc, List.take_left' rfl]
  have hsource : pre.length + token.length + post.length ≤ buf.length := by
    rw [hbuf]
    simp only [List.length_append]
    omega
  unfold memmove
  rw [if_pos hsource, htail]
  unfold memcpy
  by_cases hroom : pre.length + text.length + post.length ≤ buf.length
  · have hcut : (buf.take (pre.length + text.length)).length = pre.length + text.length := by
      rw [List.length_take]
      omega
    have hmoved : ∀ rest : List Char,
        (buf.take (pre.length + text.length) ++ rest).take pre.length = pre := by
      intro rest
      rw [List.take_append_of_le_length (by omega), List.take_take, Nat.min_eq_left (by omega),
        hpre]
    have hfits : pre.length + text.length ≤ (buf.take (pre.length + text.length) ++ post ++
        buf.drop (pre.length + text.length + post.length)).length := by
      rw [List.append_assoc, List.length_append, hcut]
      omega
    rw [if_pos hroom, if_pos hroom, Option.bind_some, if_pos hfits,
      List.append_assoc (List.take _ _) post, hmoved, List.drop_left' hcut,
      List.append_assoc _ post]
  · rw [if_neg hroom, if_neg hroom]
    rfl

theorem find_split {ss : List Char} :
    ∀ {s : List Char} {i : Nat}, find ss s = some i →
      s = s.take i ++ ss ++ s.drop (i + ss.length) ∧ i ≤ s.length := by
  intro s
  induction s with
  | nil =>
      intro i h
      unfold find at h
      by_cases hss : ss = []
      · rw [if_pos hss] at h
        cases h
        simp [hss]
      · rw [if_neg hss] at h
        cases h
  | cons c rest ih =>
      intro i h
      unfold find at h
      by_cases hp : ss.isPrefixOf (c :: rest) = true
      · rw [if_pos hp] at h
        cases h
        have hsplit := List.prefix_iff_eq_append.mp (List.isPrefixOf_iff_prefix.mp hp)
        simpa using hsplit.symm
      · rw [if_neg hp] at h
        obtain ⟨j, hj, rfl⟩ := Option.map_eq_some_iff.mp h
        obtain ⟨hsplit, hle⟩ := ih hj
        constructor
        · have hdrop : (c :: rest).drop (j + 1 + ss.length) = rest.drop (j + ss.length) := by
            rw [show j + 1 + ss.length = j + ss.length + 1 by omega, List.drop_succ_cons]
          rw [hdrop, List.take_succ_cons, List.cons_append, List.cons_append, ← hsplit]
        · simpa using hle

/-- An occurrence cuts the text in two, and a replacement is put between them. -/
theorem replaceFirst_split {ss s : List Char} {i : Nat} (h : find ss s = some i) :
    ∃ pre post, s = pre ++ ss ++ post ∧ pre.length = i ∧
      ∀ text, replaceFirst ss text s = pre ++ text ++ post := by
  obtain ⟨hsplit, hi⟩ := find_split h
  refine ⟨s.take i, s.drop (i + ss.length), hsplit, ?_, ?_⟩
  · rw [List.length_take, Nat.min_eq_left hi]
  · intro text
    unfold replaceFirst
    rw [h]

theorem find_eq_none_iff {ss s : List Char} : find ss s = none ↔ ¬ss <:+: s := by
  induction s with
  | nil =>
      unfold find
      rw [List.infix_nil]
      split <;> simp_all
  | cons c rest ih =>
      unfold find
      rw [List.infix_cons_iff, ← List.isPrefixOf_iff_prefix]
      by_cases hp : ss.isPrefixOf (c :: rest) = true
      · simp [hp]
      · simp [hp, ih]

/-- No occurrence lies before the one that is found. -/
theorem find_le {ss post : List Char} :
    ∀ {s pre : List Char} {i : Nat}, find ss s = some i → s = pre ++ ss ++ post →
      i ≤ pre.length := by
  intro s
  induction s with
  | nil =>
      intro pre i h _
      unfold find at h
      split at h <;> cases h
      exact Nat.zero_le _
  | cons c rest ih =>
      intro pre i h hcut
      unfold find at h
      by_cases hp : ss.isPrefixOf (c :: rest) = true
      · rw [if_pos hp] at h
        cases h
        exact Nat.zero_le _
      · rw [if_neg hp] at h
        obtain ⟨j, hj, rfl⟩ := Option.map_eq_some_iff.mp h
        cases pre with
        | nil =>
            -- an occurrence at the front would have been a prefix
            refine absurd (List.isPrefixOf_iff_prefix.mpr ?_) hp
            rw [hcut]
            exact List.prefix_append ss post
        | cons d pre =>
            have hrest : rest = pre ++ ss ++ post := (List.cons.inj hcut).2
            exact Nat.succ_le_succ (ih hj hrest)

/-- The first occurrence of `ss`, as a cut of the text. -/
structure FirstAt (ss s pre post : List Char) : Prop where
  cut : s = pre ++ ss ++ post
  first : ∀ pre' post', s = pre' ++ ss ++ post' → pre.length ≤ pre'.length

theorem exists_firstAt {ss s : List Char} (h : ss <:+: s) : ∃ pre post, FirstAt ss s pre post := by
  cases hfind : find ss s with
  | none => exact absurd h (find_eq_none_iff.mp hfind)
  | some i =>
      obtain ⟨pre, post, hcut, rfl, -⟩ := replaceFirst_split hfind
      exact ⟨pre, post, hcut, fun _ _ hother => find_le hfind hother⟩

/-- The first occurrence is the one that is found and replaced. -/
theorem FirstAt.replaced {ss s pre post : List Char} (h : FirstAt ss s pre post) :
    find ss s = some pre.length ∧ ∀ text, replaceFirst ss text s = pre ++ text ++ post := by
  have hoccurs : ss <:+: s := ⟨pre, post, h.cut.symm⟩
  cases hfind : find ss s with
  | none => exact absurd hoccurs (find_eq_none_iff.mp hfind)
  | some i =>
      obtain ⟨pre', post', hcut, rfl, hreplace⟩ := replaceFirst_split hfind
      have hlength : pre'.length = pre.length :=
        Nat.le_antisymm (find_le hfind h.cut) (h.first pre' post' hcut)
      have hsame : pre' ++ (ss ++ post') = pre ++ (ss ++ post) := by
        rw [← List.append_assoc, ← List.append_assoc, ← hcut, ← h.cut]
      obtain ⟨rfl, htail⟩ := List.append_inj hsame hlength
      have hpost : post' = post := List.append_cancel_left htail
      rw [← hpost]
      exact ⟨rfl, hreplace⟩

theorem length_replaceFirst {ss s : List Char} (h : ss <:+: s) (text : List Char) :
    (replaceFirst ss text s).length + ss.length = s.length + text.length := by
  obtain ⟨pre, post, hfirst⟩ := exists_firstAt h
  rw [hfirst.replaced.2, hfirst.cut]
  simp only [List.length_append]
  omega

theorem replaceFirst_absent {ss s : List Char} (h : ¬ss <:+: s) (text : List Char) :
    replaceFirst ss text s = s := by
  unfold replaceFirst
  rw [find_eq_none_iff.mpr h]

theorem nul_notMem_replaceFirst {ss text s : List Char} (hs : nul ∉ s) (htext : nul ∉ text) :
    nul ∉ replaceFirst ss text s := by
  by_cases h : ss <:+: s
  · obtain ⟨pre, post, hfirst⟩ := exists_firstAt h
    rw [hfirst.cut] at hs
    rw [hfirst.replaced.2]
    simp only [List.mem_append, not_or] at hs ⊢
    exact ⟨⟨hs.1.1, htext⟩, hs.2⟩
  · rwa [replaceFirst_absent h]

/-- A text ends where it should exactly when a zero stands behind it. -/
theorem terminated_iff {s rest : List Char} (hs : nul ∉ s) :
    (nul ∈ s ++ rest ∧ cstr (s ++ rest) = s) ↔ rest.head? = some nul := by
  rw [cstr_append hs]
  cases rest with
  | nil => simp [hs]
  | cons c rest =>
      by_cases hc : c = nul
      · simp [cstr, hc]
      · simp [cstr, hc]

/-- No zero stands inside the string. -/
theorem getElem?_cstr_ne {buf : List Char} {k : Nat} (hk : k < (cstr buf).length) :
    buf[k]? ≠ some nul := by
  intro h
  obtain ⟨rest, hrest⟩ : cstr buf <+: buf := List.takeWhile_prefix _
  rw [← hrest, List.getElem?_append_left hk] at h
  exact nul_notMem_cstr buf (List.mem_of_getElem? h)

/-! ## Tokens of a mark and a key -/

section Tokens

variable {mark key key' : Char} {t t' : List Char}

theorem token_iff (c : Char) (s : List Char) :
    [mark, key].isPrefixOf (c :: s) = true ↔ c = mark ∧ s.head? = some key := by
  cases s with
  | nil => simp [List.isPrefixOf]
  | cons d rest =>
      rw [List.isPrefixOf_iff_prefix, List.cons_prefix_cons, List.cons_prefix_cons,
        List.head?_cons, Option.some_inj, eq_comm, @eq_comm _ key d]
      simp

theorem occurrences_cons (c : Char) (s : List Char) :
    occurrences [mark, key] (c :: s) =
      (if c = mark ∧ s.head? = some key then 1 else 0) + occurrences [mark, key] s := by
  conv => lhs; unfold occurrences
  by_cases h : c = mark ∧ s.head? = some key
  · rw [if_pos h, if_pos ((token_iff c s).mpr h)]
  · rw [if_neg h, if_neg (fun hp => h ((token_iff c s).mp hp))]

theorem occurrences_cons_ne {c : Char} (hc : c ≠ mark) (s : List Char) :
    occurrences [mark, key] (c :: s) = occurrences [mark, key] s := by
  rw [occurrences_cons, if_neg (fun h => hc h.1), Nat.zero_add]

theorem occurrences_unmarked (ht : mark ∉ t) (s : List Char) :
    occurrences [mark, key] (t ++ s) = occurrences [mark, key] s := by
  induction t with
  | nil => rfl
  | cons c rest ih =>
      obtain ⟨hc, hrest⟩ := List.ne_and_not_mem_of_not_mem_cons ht
      rw [List.cons_append, occurrences_cons_ne (Ne.symm hc), ih hrest]

theorem expand_cons_ne {c : Char} (hc : c ≠ mark) (text : Char → Option (List Char))
    (s : List Char) : expand mark text (c :: s) = c :: expand mark text s := by
  cases s with
  | nil => rfl
  | cons d rest =>
      conv => lhs; unfold expand
      rw [if_neg hc]

theorem expand_token {text : Char → Option (List Char)} {k : Char} (hk : text k = some t)
    (s : List Char) : expand mark text (mark :: k :: s) = t ++ expand mark text s := by
  conv => lhs; unfold expand
  rw [if_pos rfl, hk]

theorem expand_cons_none {text : Char → Option (List Char)} (c : Char) {k : Char}
    (hk : text k = none) (s : List Char) :
    expand mark text (c :: k :: s) = c :: expand mark text (k :: s) := by
  conv => lhs; unfold expand
  rw [hk]
  by_cases hc : c = mark
  · rw [if_pos hc]
  · rw [if_neg hc]

theorem expand_unmarked (ht : mark ∉ t) (text : Char → Option (List Char)) (s : List Char) :
    expand mark text (t ++ s) = t ++ expand mark text s := by
  induction t with
  | nil => rfl
  | cons c rest ih =>
      obtain ⟨hc, hrest⟩ := List.ne_and_not_mem_of_not_mem_cons ht
      rw [List.cons_append, expand_cons_ne (Ne.symm hc), ih hrest, List.cons_append]

@[simp] theorem single_self : single key t key = some t :=
  if_pos rfl

theorem single_ne {c : Char} (h : c ≠ key) : single key t c = none :=
  if_neg h

theorem single_some {c : Char} {u : List Char} (h : single key t c = some u) :
    c = key ∧ t = u := by
  unfold single at h
  by_cases hc : c = key
  · rw [if_pos hc] at h
    exact ⟨hc, Option.some.inj h⟩
  · rw [if_neg hc] at h
    cases h

theorem double_fst : double key t key' t' key = some t :=
  if_pos rfl

theorem double_snd (h : key' ≠ key) : double key t key' t' key' = some t' := by
  unfold double
  rw [if_neg h, if_pos rfl]

theorem double_ne {c : Char} (h : c ≠ key) (h' : c ≠ key') : double key t key' t' c = none := by
  unfold double
  rw [if_neg h, if_neg h']

/-- An expansion begins with the other key only if the text did. -/
theorem expand_head (ht : Inert mark key' t) (hkey' : mark ≠ key') (c : Char) (s : List Char) :
    (expand mark (single key t) (c :: s)).head? = some key' ↔ c = key' := by
  have hkeep : ∀ r : List Char, (c :: r).head? = some key' ↔ c = key' := by
    intro r
    rw [List.head?_cons, Option.some_inj]
  by_cases hc : c = mark
  · subst hc
    cases s with
    | nil => exact hkeep []
    | cons k rest =>
        by_cases hk : k = key
        · subst hk
          rw [expand_token single_self]
          have hne : t ≠ [] := by
            intro h
            have hlong := ht.long
            rw [h] at hlong
            cases hlong
          rw [List.head?_append_of_ne_nil _ hne]
          constructor
          · intro h
            exact absurd h ht.head
          · intro h
            exact absurd h hkey'
        · rw [expand_cons_none c (single_ne hk)]
          exact hkeep _
  · rw [expand_cons_ne hc]
    exact hkeep _

/-- Expanding one key keeps the tokens of the other. -/
theorem occurrences_expand (ht : Inert mark key' t) (hkey : mark ≠ key) (hkey' : mark ≠ key')
    (hne : key ≠ key') (s : List Char) :
    occurrences [mark, key'] (expand mark (single key t) s) = occurrences [mark, key'] s := by
  induction s using expand.induct mark (single key t) with
  | case1 => rfl
  | case2 c => rfl
  | case3 k rest u hk ih =>
      obtain ⟨rfl, rfl⟩ := single_some hk
      rw [expand_token single_self, occurrences_unmarked ht.unmarked, ih, occurrences_cons,
        occurrences_cons_ne (Ne.symm hkey), List.head?_cons, if_neg (by simp [hne]), Nat.zero_add]
  | case4 k rest hk ih =>
      rw [expand_cons_none mark hk, occurrences_cons, occurrences_cons, ih]
      simp only [expand_head ht hkey', List.head?_cons, Option.some_inj]
  | case5 c k rest hc ih =>
      rw [expand_cons_ne hc, occurrences_cons_ne hc, occurrences_cons_ne hc, ih]

/-- **Two replacements are one pass**, whichever comes first. -/
theorem expand_expand (ht : Inert mark key' t) (hkey' : mark ≠ key') (hne : key ≠ key')
    (t' s : List Char) :
    expand mark (single key' t') (expand mark (single key t) s) =
      expand mark (double key t key' t') s := by
  induction s using expand.induct mark (double key t key' t') with
  | case1 => rfl
  | case2 c => rfl
  | case3 k rest u hk ih =>
      by_cases h : k = key
      · subst h
        rw [expand_token single_self, expand_unmarked ht.unmarked, ih, expand_token double_fst]
      · have h' : k = key' := by
          by_contra h'
          rw [double_ne h h'] at hk
          cases hk
        subst h'
        rw [expand_cons_none mark (single_ne h), expand_cons_ne (Ne.symm hkey'),
          expand_token single_self, ih, expand_token (double_snd (Ne.symm hne))]
  | case4 k rest hk ih =>
      have h : k ≠ key := by
        intro h
        rw [h, double_fst] at hk
        cases hk
      have h' : k ≠ key' := by
        intro h'
        rw [h', double_snd (Ne.symm hne)] at hk
        cases hk
      rw [expand_cons_none mark (single_ne h), expand_cons_none mark (double_ne h h'), ← ih]
      rcases hs : expand mark (single key t) (k :: rest) with _ | ⟨d, r⟩
      · rfl
      · have hd : d ≠ key' := by
          intro hd
          have hhead : (expand mark (single key t) (k :: rest)).head? = some key' := by
            rw [hs, hd, List.head?_cons]
          exact h' ((expand_head ht hkey' k rest).mp hhead)
        rw [expand_cons_none mark (single_ne hd)]
  | case5 c k rest hc ih =>
      rw [expand_cons_ne hc, expand_cons_ne hc, expand_cons_ne hc, ih]

theorem expand_absent {s : List Char} (h : occurrences [mark, key] s = 0) :
    expand mark (single key t) s = s := by
  induction s using expand.induct mark (single key t) with
  | case1 => rfl
  | case2 c => rfl
  | case3 k rest u hk ih =>
      obtain ⟨rfl, rfl⟩ := single_some hk
      rw [occurrences_cons, if_pos ⟨rfl, rfl⟩] at h
      omega
  | case4 k rest hk ih =>
      rw [occurrences_cons] at h
      rw [expand_cons_none mark hk, ih (by omega)]
  | case5 c k rest hc ih =>
      rw [occurrences_cons] at h
      rw [expand_cons_ne hc, ih (by omega)]

theorem replaceFirst_token (s : List Char) :
    replaceFirst [mark, key] t (mark :: key :: s) = t ++ s := by
  have hp : [mark, key].isPrefixOf (mark :: key :: s) = true :=
    (token_iff mark (key :: s)).mpr ⟨rfl, rfl⟩
  unfold replaceFirst find
  rw [if_pos hp]
  rfl

theorem replaceFirst_cons {c : Char} {s : List Char} (h : ¬(c = mark ∧ s.head? = some key)) :
    replaceFirst [mark, key] t (c :: s) = c :: replaceFirst [mark, key] t s := by
  have hp : ¬[mark, key].isPrefixOf (c :: s) = true := fun hp => h ((token_iff c s).mp hp)
  unfold replaceFirst
  conv => lhs; unfold find
  rw [if_neg hp]
  cases hf : find [mark, key] s with
  | none => rfl
  | some i =>
      simp only [Option.map_some, List.take_succ_cons, List.cons_append]
      rw [show i + 1 + [mark, key].length = i + [mark, key].length + 1 by rfl,
        List.drop_succ_cons]

/-- A token that occurs once is replaced by the pass. -/
theorem replaceFirst_eq_expand (hkey : mark ≠ key) {s : List Char}
    (h : occurrences [mark, key] s ≤ 1) :
    replaceFirst [mark, key] t s = expand mark (single key t) s := by
  induction s using expand.induct mark (single key t) with
  | case1 => rfl
  | case2 c => rw [replaceFirst_cons (by simp)]; rfl
  | case3 k rest u hk ih =>
      obtain ⟨rfl, rfl⟩ := single_some hk
      rw [occurrences_cons, if_pos ⟨rfl, rfl⟩, occurrences_cons_ne (Ne.symm hkey)] at h
      rw [replaceFirst_token, expand_token single_self, expand_absent (by omega)]
  | case4 k rest hk ih =>
      have hkk : k ≠ key := by
        intro h
        rw [h, single_self] at hk
        cases hk
      rw [occurrences_cons] at h
      rw [expand_cons_none mark hk, replaceFirst_cons (by simp [hkk]), ih (by omega)]
  | case5 c k rest hc ih =>
      rw [occurrences_cons_ne hc] at h
      rw [expand_cons_ne hc, replaceFirst_cons (fun hp => hc hp.1), ih h]

theorem mem_expand {c : Char} {s : List Char} (h : c ∈ expand mark (single key t) s) :
    c ∈ s ∨ c ∈ t := by
  induction s using expand.induct mark (single key t) with
  | case1 => exact Or.inl h
  | case2 c => exact Or.inl h
  | case3 k rest u hk ih =>
      obtain ⟨rfl, rfl⟩ := single_some hk
      rw [expand_token single_self] at h
      rcases List.mem_append.mp h with h | h
      · exact Or.inr h
      · rcases ih h with h | h
        · exact Or.inl (List.mem_cons_of_mem _ (List.mem_cons_of_mem _ h))
        · exact Or.inr h
  | case4 k rest hk ih =>
      rw [expand_cons_none mark hk] at h
      rcases List.mem_cons.mp h with h | h
      · exact Or.inl (h ▸ List.mem_cons_self)
      · rcases ih h with h | h
        · exact Or.inl (List.mem_cons_of_mem _ h)
        · exact Or.inr h
  | case5 d k rest hc ih =>
      rw [expand_cons_ne hc] at h
      rcases List.mem_cons.mp h with h | h
      · exact Or.inl (h ▸ List.mem_cons_self)
      · rcases ih h with h | h
        · exact Or.inl (List.mem_cons_of_mem _ h)
        · exact Or.inr h

theorem length_le_expand (ht : 2 ≤ t.length) (s : List Char) :
    s.length ≤ (expand mark (single key t) s).length := by
  induction s using expand.induct mark (single key t) with
  | case1 => exact Nat.le_refl _
  | case2 c => exact Nat.le_refl _
  | case3 k rest u hk ih =>
      obtain ⟨rfl, rfl⟩ := single_some hk
      rw [expand_token single_self, List.length_append, List.length_cons, List.length_cons]
      omega
  | case4 k rest hk ih =>
      rw [expand_cons_none mark hk]
      exact Nat.succ_le_succ ih
  | case5 c k rest hc ih =>
      rw [expand_cons_ne hc]
      exact Nat.succ_le_succ ih

end Tokens

end TextBuffer
