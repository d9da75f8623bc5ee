import JsrD10f.LinkChain
import Mathlib.Data.List.Basic

/-!
# The list of pending requests

`ril.cpp` links every request it has handed to the vendor into the singly
linked list `s_pendingRequests`, newest first.  Three sections under
`s_pendingRequestsMutex` touch the list: the push in `processCommandBuffer` and
`issueLocalRequest`, the search and unlink in `checkAndDequeueRequestInfo`, and
the marking pass of `onCommandsSocketClosed`.  This file has the three of them
over a heap of `RequestInfo` records and says what each does to the list of
addresses.

An address without a live record reads as `none`, so following a pointer to a
freed record has no result.  `ghost` is not in the source; it carries what a
theorem wants to know about a request.
-/

namespace Libril

open LinkChain

/-- `struct RequestInfo`.  `pCI` is the index of its entry in `s_commands`, and
`isLocal` is the flag `local`. -/
structure RequestInfo (α γ : Type) where
  token : Int
  pCI : Nat
  pNext : Option α
  cancelled : Bool
  isLocal : Bool
  ghost : γ
deriving DecidableEq, Repr

/-- The heap of requests and the head of the list, `s_pendingRequests`. -/
structure Requests (α γ : Type) where
  heap : α → Option (RequestInfo α γ)
  pending : Option α

def Requests.empty {α γ : Type} : Requests α γ :=
  ⟨fun _ => none, none⟩

/-- The token that `issueLocalRequest` writes, `0xffffffff` as an `int32_t`. -/
def localToken : Int := -1

variable {α γ : Type} [DecidableEq α]

/-- A fresh record at `a`. -/
def Requests.alloc (q : Requests α γ) (a : α) (v : RequestInfo α γ) : Requests α γ :=
  { q with heap := Function.update q.heap a (some v) }

def Requests.free (q : Requests α γ) (a : α) : Requests α γ :=
  { q with heap := Function.update q.heap a none }

/-- The push at the front of the list. -/
def Requests.link (q : Requests α γ) (a : α) : Option (Requests α γ) := do
  let v ← q.heap a
  some ⟨Function.update q.heap a (some { v with pNext := q.pending }), some a⟩

/-- `*ppCur`, where `none` is the address of `s_pendingRequests` and `some a`
that of the field `p_next` of `a`. -/
def Requests.load (q : Requests α γ) : Option α → Option (Option α)
  | none => some q.pending
  | some a => (q.heap a).map (·.pNext)

/-- `*ppCur = p`. -/
def Requests.store (q : Requests α γ) (ppCur p : Option α) : Option (Requests α γ) :=
  match ppCur with
  | none => some { q with pending := p }
  | some a => (q.heap a).map fun v =>
      { q with heap := Function.update q.heap a (some { v with pNext := p }) }

/-- The loop of `checkAndDequeueRequestInfo` from the cursor `ppCur` on. -/
def dequeueLoop (pRI : α) : Nat → Option α → Requests α γ → Option (Bool × Requests α γ)
  | 0, _, _ => none
  | fuel + 1, ppCur, q => do
      let cur ← q.load ppCur
      match cur with
      | none => some (false, q)
      | some a =>
          if pRI = a then do
            let v ← q.heap a
            let q ← q.store ppCur v.pNext
            some (true, q)
          else dequeueLoop pRI fuel (some a) q

def checkAndDequeueRequestInfo (fuel : Nat) (pRI : Option α) (q : Requests α γ) :
    Option (Bool × Requests α γ) :=
  match pRI with
  | none => some (false, q)
  | some a => dequeueLoop a fuel none q

/-- The loop of `onCommandsSocketClosed`. -/
def cancelLoop : Nat → Option α → Requests α γ → Option (Requests α γ)
  | 0, _, _ => none
  | _ + 1, none, q => some q
  | fuel + 1, some a, q => do
      let v ← q.heap a
      cancelLoop fuel v.pNext
        { q with heap := Function.update q.heap a (some { v with cancelled := true }) }

def onCommandsSocketClosed (fuel : Nat) (q : Requests α γ) : Option (Requests α γ) :=
  cancelLoop fuel q.pending q

/-! ## What the three sections do -/

/-- The pointer `p_next` of a record. -/
def Requests.next (q : Requests α γ) (a : α) : Option α :=
  (q.heap a).bind (·.pNext)

/-- A record without its pointer. -/
def Requests.info (q : Requests α γ) (a : α) : Option (RequestInfo α γ) :=
  (q.heap a).map fun v => { v with pNext := none }

/-- `s_pendingRequests` is the NULL-terminated list `l` of live records. -/
structure Pending (q : Requests α γ) (l : List α) : Prop where
  chain : Chain q.next q.pending l
  live : ∀ a ∈ l, (q.heap a).isSome

omit [DecidableEq α] in
theorem info_isSome {q : Requests α γ} {a : α} : (q.info a).isSome = (q.heap a).isSome := by
  simp [Requests.info]

omit [DecidableEq α] in
theorem info_of_heap {q : Requests α γ} {a : α} {v : RequestInfo α γ}
    (hv : q.heap a = some v) : q.info a = some { v with pNext := none } := by
  simp [Requests.info, hv]

omit [DecidableEq α] in
theorem heap_of_info {q : Requests α γ} {a : α} {v : RequestInfo α γ}
    (hv : q.info a = some v) : ∃ w, q.heap a = some w ∧ { w with pNext := none } = v := by
  simpa [Requests.info] using hv

omit [DecidableEq α] in
/-- A live record is not at a free address. -/
theorem ne_of_info {q : Requests α γ} {a b : α} {v : RequestInfo α γ}
    (hfree : q.heap a = none) (hv : q.info b = some v) : b ≠ a := by
  rintro rfl
  simp [Requests.info, hfree] at hv

theorem info_alloc_self (q : Requests α γ) (a : α) (v : RequestInfo α γ) :
    (q.alloc a v).info a = some { v with pNext := none } := by
  simp [Requests.alloc, Requests.info]

theorem info_alloc_of_ne {q : Requests α γ} {a b : α} (hb : b ≠ a) (v : RequestInfo α γ) :
    (q.alloc a v).info b = q.info b := by
  simp [Requests.alloc, Requests.info, hb]

omit [DecidableEq α] in
/-- The list and the liveness of its members only depend on the pointers and
on which records are live. -/
theorem Pending.of_chain {q q' : Requests α γ} {l : List α}
    (hchain : Chain q'.next q'.pending l) (hlive : ∀ a ∈ l, (q.heap a).isSome)
    (hinfo : ∀ a, (q'.info a).isSome = (q.info a).isSome) : Pending q' l := by
  refine ⟨hchain, ?_⟩
  intro a ha
  rw [← info_isSome, hinfo, info_isSome]
  exact hlive a ha

/-- A write to `p_next`. -/
theorem write_pNext {q : Requests α γ} {a : α} {v : RequestInfo α γ} (p head : Option α)
    (hv : q.heap a = some v) :
    Requests.next ⟨Function.update q.heap a (some { v with pNext := p }), head⟩ =
        Function.update q.next a p ∧
      Requests.info ⟨Function.update q.heap a (some { v with pNext := p }), head⟩ =
        q.info := by
  constructor
  · funext b
    by_cases hb : b = a
    · subst hb
      simp [Requests.next]
    · simp [Requests.next, hb]
  · funext b
    by_cases hb : b = a
    · subst hb
      simp [Requests.info, hv]
    · simp [Requests.info, hb]

/-- **The push.** -/
theorem link_spec {q : Requests α γ} {l : List α} {a : α} (h : Pending q l)
    (ha : (q.heap a).isSome) (hl : a ∉ l) :
    ∃ q', q.link a = some q' ∧ Pending q' (a :: l) ∧ q'.info = q.info := by
  obtain ⟨v, hv⟩ := Option.isSome_iff_exists.mp ha
  obtain ⟨hnext, hinfo⟩ := write_pNext q.pending (some a) hv
  refine ⟨_, by simp [Requests.link, hv], ?_, hinfo⟩
  refine Pending.of_chain (q := q) ?_ ?_ (fun b => by rw [hinfo])
  · rw [hnext]
    exact chain_push hl h.chain
  · intro b hb
    rcases List.mem_cons.mp hb with hba | hbl
    · rw [hba]
      exact ha
    · exact h.live b hbl

omit [DecidableEq α] in
/-- The cursor behind the members `done` points to the next one. -/
theorem load_cursor {q : Requests α γ} {done rest : List α}
    (h : Pending q (done ++ rest)) : q.load done.getLast? = some rest.head? := by
  rcases List.eq_nil_or_concat done with hdone | ⟨front, b, hdone⟩
  · subst hdone
    simp only [List.getLast?_nil, Requests.load]
    rw [chain_head h.chain, List.nil_append]
  · subst hdone
    have hb : b ∈ front.concat b ++ rest := by simp
    obtain ⟨v, hv⟩ := Option.isSome_iff_exists.mp (h.live b hb)
    have hnext : q.next b = rest.head? := by
      have hchain := h.chain
      rw [List.concat_eq_append, List.append_assoc] at hchain
      exact chain_next hchain
    simp only [Requests.next, hv, Option.bind_some] at hnext
    simp [Requests.load, hv, hnext]

/-- Unlinking the member at the cursor. -/
theorem store_cursor {q : Requests α γ} {done rest : List α} {a : α}
    (h : Pending q (done ++ a :: rest)) :
    ∃ q', q.store done.getLast? (q.next a) = some q' ∧ Pending q' (done ++ rest) ∧
      q'.info = q.info := by
  have hlive : ∀ b ∈ done ++ rest, (q.heap b).isSome := by
    intro b hb
    apply h.live b
    simp only [List.mem_append, List.mem_cons] at hb ⊢
    tauto
  rcases List.eq_nil_or_concat done with hdone | ⟨front, b, hdone⟩
  · subst hdone
    refine ⟨{ q with pending := q.next a }, rfl, ?_, rfl⟩
    exact Pending.of_chain (q := q) h.chain.2 hlive (fun _ => rfl)
  · rw [List.concat_eq_append] at hdone
    subst hdone
    obtain ⟨v, hv⟩ := Option.isSome_iff_exists.mp (h.live b (by simp))
    obtain ⟨hnext, hinfo⟩ := write_pNext (q.next a) q.pending hv
    refine ⟨_, by simp [Requests.store, hv], ?_, hinfo⟩
    refine Pending.of_chain (q := q) ?_ hlive (fun c => by rw [hinfo])
    rw [hnext]
    have hchain := h.chain
    rw [List.append_assoc] at hchain
    simpa using chain_unlink hchain

theorem dequeueLoop_spec {q : Requests α γ} (done : List α) {rest : List α} {a : α} {fuel : Nat}
    (h : Pending q (done ++ rest)) (hfuel : rest.length < fuel) :
    (a ∉ rest → dequeueLoop a fuel done.getLast? q = some (false, q)) ∧
      ∀ front back, rest = front ++ a :: back → a ∉ front →
        ∃ q', dequeueLoop a fuel done.getLast? q = some (true, q') ∧
          Pending q' (done ++ front ++ back) ∧ q'.info = q.info := by
  induction rest generalizing done fuel with
  | nil =>
      obtain ⟨f, rfl⟩ : ∃ f, fuel = f + 1 := ⟨fuel - 1, by simp at hfuel; omega⟩
      constructor
      · intro _
        simp [dequeueLoop, load_cursor h]
      · intro front back hsplit
        simp at hsplit
  | cons b rest ih =>
      obtain ⟨f, rfl⟩ : ∃ f, fuel = f + 1 := ⟨fuel - 1, by simp at hfuel; omega⟩
      have hload := load_cursor h
      have hrest : Pending q ((done ++ [b]) ++ rest) := by simpa using h
      obtain ⟨ihno, ihyes⟩ := ih (done ++ [b]) hrest (by simp at hfuel; omega)
      rw [List.getLast?_concat] at ihno ihyes
      constructor
      · intro hnot
        obtain ⟨hab, hnot⟩ := List.ne_and_not_mem_of_not_mem_cons hnot
        simpa [dequeueLoop, hload, hab] using ihno hnot
      · intro front back hsplit hfront
        by_cases hab : a = b
        · subst hab
          have hnil : front = [] := by
            cases front with
            | nil => rfl
            | cons c front =>
                have hc : a = c := (List.cons.inj hsplit).1
                exact absurd (hc ▸ List.mem_cons_self) hfront
          subst hnil
          obtain rfl : rest = back := (List.cons.inj hsplit).2
          obtain ⟨q', hstore, hpending, hinfo⟩ := store_cursor h
          obtain ⟨v, hv⟩ := Option.isSome_iff_exists.mp (h.live a (by simp))
          have hnext : q.next a = v.pNext := by simp [Requests.next, hv]
          rw [hnext] at hstore
          exact ⟨q', by simp [dequeueLoop, hload, hv, hstore], by simpa using hpending, hinfo⟩
        · cases front with
          | nil => exact absurd (List.cons.inj hsplit).1.symm hab
          | cons c front =>
              obtain ⟨rfl, htail⟩ := List.cons.inj hsplit
              obtain ⟨q', hrun, hpending, hinfo⟩ := ihyes front back htail
                (fun hm => hfront (List.mem_cons_of_mem _ hm))
              exact ⟨q', by simpa [dequeueLoop, hload, hab] using hrun,
                by simpa using hpending, hinfo⟩

/-- **The dequeue.**  A token on the list is taken out of it; any other token,
NULL included, leaves everything as it is. -/
theorem checkAndDequeueRequestInfo_spec {q : Requests α γ} {l : List α} {fuel : Nat}
    (h : Pending q l) (hfuel : l.length < fuel) (pRI : Option α) :
    ((∀ a ∈ l, pRI ≠ some a) → checkAndDequeueRequestInfo fuel pRI q = some (false, q)) ∧
      ∀ a ∈ l, pRI = some a → ∃ q', checkAndDequeueRequestInfo fuel pRI q = some (true, q') ∧
        Pending q' (l.erase a) ∧ q'.info = q.info := by
  cases pRI with
  | none => exact ⟨fun _ => rfl, fun a _ hnone => absurd hnone (by simp)⟩
  | some b =>
      obtain ⟨hno, hyes⟩ := dequeueLoop_spec [] h hfuel
      constructor
      · intro hnot
        exact hno (fun hb => hnot b hb rfl)
      · intro a ha hba
        obtain rfl : b = a := Option.some.inj hba
        obtain ⟨front, back, hfront, hsplit, herase⟩ := List.exists_erase_eq ha
        obtain ⟨q', hrun, hpending, hinfo⟩ := hyes front back hsplit hfront
        exact ⟨q', hrun, by simpa [herase] using hpending, hinfo⟩

/-- The record of a cancelled request. -/
def RequestInfo.cancel (v : RequestInfo α γ) : RequestInfo α γ :=
  { v with cancelled := true }

theorem cancelLoop_spec {q : Requests α γ} {l : List α} {p : Option α} {fuel : Nat}
    (hchain : Chain q.next p l) (hlive : ∀ a ∈ l, (q.heap a).isSome)
    (hfuel : l.length < fuel) :
    ∃ q', cancelLoop fuel p q = some q' ∧ q'.next = q.next ∧ q'.pending = q.pending ∧
      ∀ a, q'.info a = if a ∈ l then (q.info a).map RequestInfo.cancel else q.info a := by
  induction l generalizing q p fuel with
  | nil =>
      obtain ⟨f, rfl⟩ : ∃ f, fuel = f + 1 := ⟨fuel - 1, by simp at hfuel; omega⟩
      cases hchain
      exact ⟨q, rfl, rfl, rfl, by simp⟩
  | cons a l ih =>
      obtain ⟨f, rfl⟩ : ∃ f, fuel = f + 1 := ⟨fuel - 1, by simp at hfuel; omega⟩
      obtain ⟨hp, htail⟩ := hchain
      obtain ⟨v, hv⟩ := Option.isSome_iff_exists.mp (hlive a List.mem_cons_self)
      have hnext : q.next a = v.pNext := by simp [Requests.next, hv]
      let q₁ : Requests α γ :=
        { q with heap := Function.update q.heap a (some { v with cancelled := true }) }
      have hnext₁ : q₁.next = q.next := by
        funext b
        by_cases hb : b = a
        · subst hb
          simp [q₁, Requests.next, hv]
        · simp [q₁, Requests.next, hb]
      have hinfo₁ : ∀ b, q₁.info b =
          if b = a then (q.info b).map RequestInfo.cancel else q.info b := by
        intro b
        by_cases hb : b = a
        · subst hb
          simp [q₁, Requests.info, hv, RequestInfo.cancel]
        · simp [q₁, Requests.info, hb]
      have hlive₁ : ∀ b ∈ l, (q₁.heap b).isSome := by
        intro b hb
        have hsome := hlive b (List.mem_cons_of_mem _ hb)
        rw [← info_isSome, hinfo₁]
        rw [← info_isSome] at hsome
        by_cases hba : b = a
        · simpa [hba] using hba ▸ hsome
        · simpa [hba] using hsome
      rw [hnext, ← hnext₁] at htail
      obtain ⟨q', hrun, hnext', hpending', hinfo'⟩ :=
        ih htail hlive₁ (by simp at hfuel; omega)
      refine ⟨q', ?_, hnext'.trans hnext₁, hpending', ?_⟩
      · simpa [cancelLoop, hp, hv] using hrun
      · intro b
        rw [hinfo', hinfo₁]
        by_cases hba : b = a
        · by_cases hbl : b ∈ l
          · simp only [hba, hba ▸ hbl, List.mem_cons_self, if_true, Option.map_map]
            rfl
          · simp [hba, hba ▸ hbl]
        · simp [hba]

/-- **The marking pass.**  It cancels the requests on the list and no others. -/
theorem onCommandsSocketClosed_spec {q : Requests α γ} {l : List α} {fuel : Nat}
    (h : Pending q l) (hfuel : l.length < fuel) :
    ∃ q', onCommandsSocketClosed fuel q = some q' ∧ Pending q' l ∧
      ∀ a, q'.info a = if a ∈ l then (q.info a).map RequestInfo.cancel else q.info a := by
  obtain ⟨q', hrun, hnext, hpending, hinfo⟩ := cancelLoop_spec h.chain h.live hfuel
  refine ⟨q', hrun, Pending.of_chain (q := q) ?_ h.live ?_, hinfo⟩
  · rw [hnext, hpending]
    exact h.chain
  · intro a
    rw [hinfo]
    by_cases ha : a ∈ l
    · simp [ha]
    · simp [ha]

/-- A record that is not on the list may be written or freed. -/
theorem Pending.write_other {q : Requests α γ} {l : List α} {a : α} (h : Pending q l)
    (ha : a ∉ l) (v : Option (RequestInfo α γ)) :
    Pending { q with heap := Function.update q.heap a v } l := by
  have hne : ∀ b ∈ l, b ≠ a := fun b hb hba => ha (hba ▸ hb)
  refine ⟨?_, ?_⟩
  · refine chain_congr ?_ h.chain
    intro b hb
    simp [Requests.next, hne b hb]
  · intro b hb
    simpa [hne b hb] using h.live b hb

end Libril
