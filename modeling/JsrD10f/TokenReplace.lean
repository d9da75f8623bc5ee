import JsrD10f.StorageList

/-!
# Replacing the tokens of a template

`str_replace` moves the text behind a token and copies the new text in.  It knows the
length of the string but not the size of the buffer, and it does not move the
terminator along.  The new string therefore ends where it should only if a zero was
already there: behind a text that became longer, inside the buffer, and never behind one
that became shorter.

`create_ftab_storage` clears its buffer first and replaces two tokens, so there the
question is how much room is left.
-/

namespace StorageConfig

open TextBuffer

/-! ## What is asked for -/

/-- **A replacement as it should be**: without the token nothing changes, and with it
the string is the one with the first token replaced, terminated and in its buffer. -/
structure Replaces (buf ss text : List Char) (result : Option (Int × List Char)) : Prop where
  absent : ¬ss <:+: cstr buf → result = some (-1, buf)
  found : ∀ pre post, FirstAt ss (cstr buf) pre post → ∃ buf', result = some (0, buf') ∧
    buf'.length = buf.length ∧ nul ∈ buf' ∧ cstr buf' = pre ++ text ++ post

/-- A zero stands where the string `s` will end, should it have the token. -/
def Roomy (buf s ss text : List Char) : Prop :=
  ss <:+: s → ss.length ≤ text.length ∧ buf[s.length + (text.length - ss.length)]? = some nul

instance (buf s ss text : List Char) : Decidable (Roomy buf s ss text) :=
  inferInstanceAs (Decidable (_ → _ ∧ _))

/-- The token that stands for a slot. -/
def StorageList.token (l : StorageList) (slot : Slot) : List Char :=
  '%' :: decimal (l.get slot).sdcc

/-- The call that `create_ftab_storage` makes for a slot. -/
def StorageList.substitute (l : StorageList) (tmp : List Char) (slot : Slot) :
    Option (Int × List Char) :=
  strReplace tmp '%' (l.get slot).sdcc (getVoldmanaged l slot)

/-- Both substitutions are as they should be, and neither leaves the buffer. -/
structure Substitutes (l : StorageList) (template : List Char) : Prop where
  first : Replaces (readTemplate template) (l.token .primary) (getVoldmanaged l .primary)
    (l.substitute (readTemplate template) .primary)
  second : ∀ rc tmp, l.substitute (readTemplate template) .primary = some (rc, tmp) →
    Replaces tmp (l.token .secondary) (getVoldmanaged l .secondary) (l.substitute tmp .secondary)
  inside : ∀ writable, createFtabStorage (some template) writable l ≠ none

/-- The string between the two substitutions. -/
def StorageList.halfway (l : StorageList) (template : List Char) : List Char :=
  replaceFirst (l.token .primary) (getVoldmanaged l .primary) (cstr (readTemplate template))

/-! ## One replacement -/

section Replacement

variable {buf text : List Char} {mark : Char} {num : Int}

/-- The string in the buffer behind a replacement is the one with the text, exactly
when there is room. -/
theorem replaced_terminated_iff {ss : List Char} (htext : nul ∉ text) (h : ss <:+: cstr buf) :
    (nul ∈ replaced buf ss text ∧
        cstr (replaced buf ss text) = replaceFirst ss text (cstr buf)) ↔
      Roomy buf (cstr buf) ss text := by
  have hlength := length_replaceFirst h text
  have hnul : nul ∉ replaceFirst ss text (cstr buf) :=
    nul_notMem_replaceFirst (nul_notMem_cstr buf) htext
  rw [replaced, terminated_iff hnul, List.head?_drop]
  constructor
  · intro hzero _
    have hlong : ss.length ≤ text.length := by
      -- a shorter string would end inside the old one
      by_contra hshort
      exact getElem?_cstr_ne (by omega) hzero
    refine ⟨hlong, ?_⟩
    rwa [show (cstr buf).length + (text.length - ss.length) =
      (replaceFirst ss text (cstr buf)).length by omega]
  · intro hroom
    obtain ⟨hlong, hzero⟩ := hroom h
    rwa [show (replaceFirst ss text (cstr buf)).length =
      (cstr buf).length + (text.length - ss.length) by omega]

/-- Room for the new end is room for the whole string. -/
theorem Roomy.fits {ss : List Char} (hroom : Roomy buf (cstr buf) ss text)
    (h : ss <:+: cstr buf) : (replaceFirst ss text (cstr buf)).length < buf.length := by
  obtain ⟨hlong, hzero⟩ := hroom h
  have hinside := (List.getElem?_eq_some_iff.mp hzero).1
  have hlength := length_replaceFirst h text
  omega

theorem length_replaced {ss : List Char}
    (h : (replaceFirst ss text (cstr buf)).length ≤ buf.length) :
    (replaced buf ss text).length = buf.length := by
  rw [replaced, List.length_append, List.length_drop]
  omega

theorem strReplace_occurs (hbuf : nul ∈ buf) (hmark : mark ≠ nul)
    (h : mark :: decimal num <:+: cstr buf) :
    strReplace buf mark num text =
      if (replaceFirst (mark :: decimal num) text (cstr buf)).length ≤ buf.length then
        some (0, replaced buf (mark :: decimal num) text)
      else none := by
  obtain ⟨pre, post, hfirst⟩ := exists_firstAt h
  exact strReplace_found hbuf hmark hfirst.replaced.1

/-- With a zero as the mark the token is empty, and an empty token is always found. -/
theorem strReplace_nul (hbuf : nul ∈ buf) : strReplace buf nul num text ≠ some (-1, buf) := by
  have hempty : cstr (nul :: decimal num) = [] := rfl
  have hfind : find [] (cstr buf) = some 0 := by
    cases cstr buf <;> rfl
  intro h
  simp only [strReplace, hbuf, if_true, hempty, hfind] at h
  split at h
  · cases h
  · obtain ⟨moved, -, hcopy⟩ := Option.bind_eq_some_iff.mp h
    obtain ⟨copied, -, heq⟩ := Option.map_eq_some_iff.mp hcopy
    cases heq

/-- **One replacement is right exactly when there is room.** -/
theorem strReplace_replaces_iff (hbuf : nul ∈ buf) (htext : nul ∉ text) :
    Replaces buf (mark :: decimal num) text (strReplace buf mark num text) ↔
      mark ≠ nul ∧ Roomy buf (cstr buf) (mark :: decimal num) text := by
  constructor
  · intro h
    have hmark : mark ≠ nul := by
      rintro rfl
      refine strReplace_nul hbuf (h.absent ?_)
      intro hoccurs
      exact nul_notMem_cstr buf (hoccurs.subset List.mem_cons_self)
    refine ⟨hmark, ?_⟩
    intro hoccurs
    obtain ⟨pre, post, hfirst⟩ := exists_firstAt hoccurs
    obtain ⟨buf', hresult, -, hnul, hcstr⟩ := h.found pre post hfirst
    rw [strReplace_occurs hbuf hmark hoccurs] at hresult
    split at hresult
    · cases hresult
      rw [← hfirst.replaced.2] at hcstr
      exact (replaced_terminated_iff htext hoccurs).mp ⟨hnul, hcstr⟩ hoccurs
    · cases hresult
  · rintro ⟨hmark, hroom⟩
    constructor
    · intro habsent
      exact strReplace_absent hbuf hmark (find_eq_none_iff.mpr habsent)
    · intro pre post hfirst
      have hoccurs : mark :: decimal num <:+: cstr buf := ⟨pre, post, hfirst.cut.symm⟩
      have hfits := Nat.le_of_lt (hroom.fits hoccurs)
      obtain ⟨hnul, hcstr⟩ := (replaced_terminated_iff htext hoccurs).mpr hroom
      refine ⟨_, ?_, length_replaced hfits, hnul, ?_⟩
      · rw [strReplace_occurs hbuf hmark hoccurs, if_pos hfits]
      · rw [hcstr, hfirst.replaced.2]

/-- What a replacement with room leaves: a terminated string, and behind its end the
bytes that were there. -/
theorem strReplace_roomy (hbuf : nul ∈ buf) (htext : nul ∉ text) (hmark : mark ≠ nul)
    (hroom : Roomy buf (cstr buf) (mark :: decimal num) text) :
    ∃ rc buf', strReplace buf mark num text = some (rc, buf') ∧ nul ∈ buf' ∧
      cstr buf' = replaceFirst (mark :: decimal num) text (cstr buf) ∧
      ∀ k, (cstr buf').length ≤ k → buf'[k]? = buf[k]? := by
  by_cases hoccurs : mark :: decimal num <:+: cstr buf
  · have hfits := Nat.le_of_lt (hroom.fits hoccurs)
    obtain ⟨hnul, hcstr⟩ := (replaced_terminated_iff htext hoccurs).mpr hroom
    refine ⟨0, replaced buf (mark :: decimal num) text, ?_, hnul, hcstr, ?_⟩
    · rw [strReplace_occurs hbuf hmark hoccurs, if_pos hfits]
    · intro k hk
      rw [hcstr] at hk
      rw [replaced, List.getElem?_append_right hk, List.getElem?_drop, Nat.add_sub_cancel' hk]
  · refine ⟨-1, buf, ?_, hbuf, ?_, fun _ _ => rfl⟩
    · exact strReplace_absent hbuf hmark (find_eq_none_iff.mpr hoccurs)
    · rw [replaceFirst_absent hoccurs]

end Replacement

-- The end of the old string stays behind a shorter text.
example : (strReplace (pad 8 "%10x".toList) '%' 10 "a".toList).map (fun r => cstr r.2) =
    some "ax0x".toList := by decide

/-! ## The two substitutions -/

theorem nul_mem_readTemplate (template : List Char) : nul ∈ readTemplate template := by
  apply nul_mem_pad
  rw [List.length_take]
  omega

theorem substitute_replaces_iff (l : StorageList) (slot : Slot) {tmp : List Char}
    (htmp : nul ∈ tmp) :
    Replaces tmp (l.token slot) (getVoldmanaged l slot) (l.substitute tmp slot) ↔
      Roomy tmp (cstr tmp) (l.token slot) (getVoldmanaged l slot) := by
  have hmark : '%' ≠ nul := by decide
  exact (strReplace_replaces_iff htmp (nul_notMem_getVoldmanaged l slot)).trans
    (and_iff_right hmark)

/-- With room for the first text, the second call gets the string with that text and
behind it the bytes of the template. -/
theorem substitute_roomy (l : StorageList) {template : List Char}
    (hroom : Roomy (readTemplate template) (cstr (readTemplate template)) (l.token .primary)
      (getVoldmanaged l .primary)) :
    ∃ rc tmp, l.substitute (readTemplate template) .primary = some (rc, tmp) ∧ nul ∈ tmp ∧
      cstr tmp = l.halfway template ∧
      ∀ k, (cstr tmp).length ≤ k → tmp[k]? = (readTemplate template)[k]? :=
  strReplace_roomy (nul_mem_readTemplate template) (nul_notMem_getVoldmanaged l .primary)
    (by decide) hroom

theorem createFtabStorage_ne_none {l : StorageList} {template tmp tmp' : List Char} {rc rc' : Int}
    (hfirst : l.substitute (readTemplate template) .primary = some (rc, tmp))
    (hsecond : l.substitute tmp .secondary = some (rc', tmp')) (writable : Bool) :
    createFtabStorage (some template) writable l ≠ none := by
  cases template with
  | nil => simp [createFtabStorage]
  | cons c rest =>
      unfold StorageList.substitute at hfirst hsecond
      simp [createFtabStorage, fillSlot, hfirst, hsecond]

theorem createFtabStorage_eq_none {l : StorageList} {template : List Char}
    (htemplate : template ≠ []) (h : l.substitute (readTemplate template) .primary = none)
    (writable : Bool) : createFtabStorage (some template) writable l = none := by
  cases template with
  | nil => exact absurd rfl htemplate
  | cons c rest =>
      unfold StorageList.substitute at h
      simp [createFtabStorage, fillSlot, h]

/-- A right replacement has a result. -/
theorem Replaces.result {buf ss text : List Char} {result : Option (Int × List Char)}
    (h : Replaces buf ss text result) : ∃ rc buf', result = some (rc, buf') := by
  by_cases hoccurs : ss <:+: cstr buf
  · obtain ⟨pre, post, hfirst⟩ := exists_firstAt hoccurs
    obtain ⟨buf', hresult, -⟩ := h.found pre post hfirst
    exact ⟨0, buf', hresult⟩
  · exact ⟨-1, buf, h.absent hoccurs⟩

/-- **Both substitutions are right exactly when there is room for both texts.** -/
theorem substitutes_iff (l : StorageList) (template : List Char) :
    Substitutes l template ↔
      Roomy (readTemplate template) (cstr (readTemplate template)) (l.token .primary)
          (getVoldmanaged l .primary) ∧
        Roomy (readTemplate template) (l.halfway template) (l.token .secondary)
          (getVoldmanaged l .secondary) := by
  have hone := substitute_replaces_iff l .primary (nul_mem_readTemplate template)
  -- the second call reads its bytes behind the string, where the first changed nothing
  have htwo : ∀ {tmp : List Char}, nul ∈ tmp → cstr tmp = l.halfway template →
      (∀ k, (cstr tmp).length ≤ k → tmp[k]? = (readTemplate template)[k]?) →
      (Replaces tmp (l.token .secondary) (getVoldmanaged l .secondary)
          (l.substitute tmp .secondary) ↔
        Roomy (readTemplate template) (l.halfway template) (l.token .secondary)
          (getVoldmanaged l .secondary)) := by
    intro tmp hnul hcstr hkept
    rw [substitute_replaces_iff l .secondary hnul, Roomy, hkept _ (Nat.le_add_right _ _), hcstr,
      Roomy]
  constructor
  · intro h
    have hroom := hone.mp h.first
    obtain ⟨rc, tmp, hresult, hnul, hcstr, hkept⟩ := substitute_roomy l hroom
    exact ⟨hroom, (htwo hnul hcstr hkept).mp (h.second rc tmp hresult)⟩
  · rintro ⟨hroom, hroom'⟩
    obtain ⟨rc, tmp, hresult, hnul, hcstr, hkept⟩ := substitute_roomy l hroom
    have hsecond := (htwo hnul hcstr hkept).mpr hroom'
    obtain ⟨rc', tmp', hresult'⟩ := hsecond.result
    refine ⟨hone.mpr hroom, ?_, createFtabStorage_ne_none hresult hresult'⟩
    intro rc₀ tmp₀ hresult₀
    rw [hresult] at hresult₀
    cases hresult₀
    exact hsecond

/-- In a cleared buffer room is a matter of lengths. -/
theorem roomy_pad_iff {n : Nat} {s s' ss text : List Char} (hs : s.length ≤ s'.length) :
    Roomy (pad n s) s' ss text ↔
      (ss <:+: s' → ss.length ≤ text.length ∧ s'.length + (text.length - ss.length) < n) := by
  have hzero : ∀ k, s.length ≤ k → ((pad n s)[k]? = some nul ↔ k < n) := by
    intro k hk
    rw [pad, List.getElem?_append_right hk, List.getElem?_replicate]
    by_cases hkn : k < n
    · rw [if_pos (by omega)]
      simp [hkn]
    · rw [if_neg (by omega)]
      simp [hkn]
  unfold Roomy
  rw [hzero _ (by omega)]

/-- **Replacing a token** is right exactly when the text is not shorter than the token
and a zero stands at the new end; this goes for any buffer and for the two substitutions
in the template. -/
theorem tokens_replaced_iff (buf text : List Char) (mark : Char) (num : Int32)
    (hbuf : nul ∈ buf) (htext : nul ∉ text) (l : StorageList) (template : List Char) :
    (Replaces buf (mark :: decimal num.toInt) text (strReplace buf mark num.toInt text) ↔
      mark ≠ nul ∧ Roomy buf (cstr buf) (mark :: decimal num.toInt) text) ∧
    (Substitutes l template ↔
      Roomy (readTemplate template) (cstr (readTemplate template)) (l.token .primary)
          (getVoldmanaged l .primary) ∧
        Roomy (readTemplate template) (l.halfway template) (l.token .secondary)
          (getVoldmanaged l .secondary)) :=
  ⟨strReplace_replaces_iff hbuf htext, substitutes_iff l template⟩

theorem tokens_replaced_in_line :
    Replaces (pad 24 "v=%1,ro".toList) ('%' :: decimal (1 : Int32).toInt) "usb:auto".toList
      (strReplace (pad 24 "v=%1,ro".toList) '%' (1 : Int32).toInt "usb:auto".toList) ∧
    Substitutes storageList "%1\n%2\n".toList := by
  have hread : readTemplate "%1\n%2\n".toList = pad 2048 "%1\n%2\n".toList := rfl
  have hcstr : cstr (pad 2048 "%1\n%2\n".toList) = "%1\n%2\n".toList :=
    cstr_pad (by decide) (by decide)
  have hhalf : storageList.halfway "%1\n%2\n".toList =
      getVoldmanaged storageList .primary ++ "\n%2\n".toList := by
    rw [StorageList.halfway, hread, hcstr]
    decide
  have h := tokens_replaced_iff (pad 24 "v=%1,ro".toList) "usb:auto".toList '%' 1
    (by decide) (by decide) storageList "%1\n%2\n".toList
  constructor
  · exact h.1.mpr ⟨by decide, by decide⟩
  · apply h.2.mpr
    rw [hhalf, hread, hcstr]
    constructor
    · exact (roomy_pad_iff (by decide)).mpr (fun _ => by decide)
    · exact (roomy_pad_iff (by decide)).mpr (fun _ => by decide)

/-- A template that fills the buffer up to its last byte. -/
def fullTemplate : List Char :=
  List.replicate 2045 '#' ++ "%1".toList

/-- The table of a start on which no card was exchanged and no partition was found. -/
def plainList : StorageList :=
  finalList (fun _ _ => -1) 0 false

/-- In the full template the first text is copied beyond the buffer. -/
theorem fullTemplate_overflows :
    1 ≤ fullTemplate.length ∧ fullTemplate.length ≤ 2047 ∧
      createFtabStorage (some fullTemplate) true plainList = none ∧
      ¬Substitutes plainList fullTemplate := by
  have hlength : fullTemplate.length = 2047 := by
    rw [fullTemplate, List.length_append, List.length_replicate]
    rfl
  have hnul : nul ∉ fullTemplate := by
    intro h
    rcases List.mem_append.mp h with h | h
    · exact absurd (List.eq_of_mem_replicate h) (by decide)
    · revert h
      decide
  have hread : readTemplate fullTemplate = pad 2048 fullTemplate := by
    rw [readTemplate, List.take_of_length_le (by omega)]
  have hcstr : cstr (pad 2048 fullTemplate) = fullTemplate := cstr_pad hnul (by omega)
  have htoken : plainList.token .primary <:+: fullTemplate := (List.suffix_append _ _).isInfix
  have hgrown := length_replaceFirst htoken (getVoldmanaged plainList .primary)
  rw [show (getVoldmanaged plainList .primary).length = 38 by decide,
    show (plainList.token .primary).length = 2 by decide] at hgrown
  have hbuf : (pad 2048 fullTemplate).length = 2048 := by
    rw [pad, List.length_append, List.length_replicate]
    omega
  have hsubstitute : plainList.substitute (readTemplate fullTemplate) .primary = none := by
    rw [StorageList.substitute,
      strReplace_occurs (nul_mem_readTemplate _) (by decide) (by rwa [hread, hcstr]), if_neg]
    rw [hread, hcstr, hbuf]
    change ¬(replaceFirst (plainList.token .primary) _ fullTemplate).length ≤ 2048
    omega
  have hnone : createFtabStorage (some fullTemplate) true plainList = none :=
    createFtabStorage_eq_none (by intro h; rw [h] at hlength; cases hlength) hsubstitute true
  exact ⟨by omega, by omega, hnone, fun h => h.inside true hnone⟩

end StorageConfig
