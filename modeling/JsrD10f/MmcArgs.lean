import Mathlib.Data.List.Basic
import Mathlib.Data.List.Infix
import Mathlib.Data.List.TakeDrop

/-!
# The command line of the `mmc` tool

A command is named by its verb, which has one to three words, and every word may
be shortened.  `parse_args` takes the first entry of the table whose words begin
with the words typed; `check_ambiguity` then looks at every position for another
entry that the typed words could stand for.  Together they accept a command line
exactly when it stands for one command.  This holds of any way to take a verb apart,
and so of the words that `split_command` makes of it.

These are not always the words of the verb.  `split_command` starts to count a word at
0, but the step of its loop comes before the first character of the next word, so that
a word between two others is one character too long and keeps the blank behind it.
The table has one such word, `512B`, and the command line that types the blank as well
is accepted.

The words of an entry end with a null pointer.  `check_ambiguity` compares the
lengths of verbs the wrong way round by one, and would read that null pointer if
the words of one verb were the first words of another.  No two verbs of the table
are related so, and the same fact makes the command unique.

Memory is assumed to suffice.
-/

namespace MmcUtils

/-- The functions of `mmc_cmds.c`. -/
inductive CommandFunction where
  | dumpExtcsd
  | readExtcsd
  | writeExtcsdByte
  | writeprotectGet
  | writeprotectSet
  | disable512BEmulation
  | createGpPartition
  | enhAreaSet
  | writeReliabilitySet
  | statusGet
  | writeBootEn
  | bootBusConditionsSet
  | writeBkopsEn
  | hwresetEn
  | hwresetDis
  | sanitize
  | rpmbWriteKey
  | rpmbReadCounter
  | rpmbReadBlock
  | rpmbWriteBlock
  | cacheEn
  | cacheDis
deriving DecidableEq, Repr

/-- `struct Command` without its help texts. -/
structure Command where
  func : CommandFunction
  nargs : Int
  verb : List Char
deriving DecidableEq, Repr

def commands : List Command :=
  [⟨.dumpExtcsd, -1, "extcsd dump".toList⟩,
    ⟨.readExtcsd, -1, "extcsd read".toList⟩,
    ⟨.writeExtcsdByte, -3, "extcsd write".toList⟩,
    ⟨.writeprotectGet, -1, "writeprotect get".toList⟩,
    ⟨.writeprotectSet, -1, "writeprotect set".toList⟩,
    ⟨.disable512BEmulation, -1, "disable 512B emulation".toList⟩,
    ⟨.createGpPartition, -6, "gp create".toList⟩,
    ⟨.enhAreaSet, -4, "enh_area set".toList⟩,
    ⟨.writeReliabilitySet, -2, "write_reliability set".toList⟩,
    ⟨.statusGet, -1, "status get".toList⟩,
    ⟨.writeBootEn, -3, "bootpart enable".toList⟩,
    ⟨.bootBusConditionsSet, -4, "bootbus set".toList⟩,
    ⟨.writeBkopsEn, -1, "bkops enable".toList⟩,
    ⟨.hwresetEn, -1, "hwreset enable".toList⟩,
    ⟨.hwresetDis, -1, "hwreset disable".toList⟩,
    ⟨.sanitize, -1, "sanitize".toList⟩,
    ⟨.rpmbWriteKey, -1, "rpmb write-key".toList⟩,
    ⟨.rpmbReadCounter, -1, "rpmb read-counter".toList⟩,
    ⟨.rpmbReadBlock, -1, "rpmb read-block".toList⟩,
    ⟨.rpmbWriteBlock, -1, "rpmb write-block".toList⟩,
    ⟨.cacheEn, -1, "cache enable".toList⟩,
    ⟨.cacheDis, -1, "cache disable".toList⟩]

/-- The loop of `split_command` over the text from `p` on; `s` is the text from `s` on,
of which `strndup` takes `l` characters if there are so many. -/
def splitLoop (s : List Char) (l : Nat) : List Char → List (List Char)
  | [] => [s.take l]
  | c :: rest =>
      -- `l` is set to 0 behind a word, and the step of the loop makes it 1
      if c = ' ' then s.take l :: splitLoop rest 1 rest else splitLoop s (l + 1) rest

def splitCommand (cmd : List Char) : List (List Char) :=
  splitLoop cmd 0 cmd

/-- `cmds`, without the null pointer at its end. -/
def Command.words (c : Command) : List (List Char) :=
  splitCommand c.verb

def Command.ncmds (c : Command) : Nat :=
  c.words.length

/-- `get_prgname`. -/
def getPrgname (programname : List Char) : List Char :=
  (programname.reverse.takeWhile (fun c => c ≠ '/')).reverse

/-- The loop over the words of an entry: whether all of them match, and the
index it ends at. -/
def matchWords : List (List Char) → List (List Char) → Bool × Nat
  | [], _ => (true, 0)
  | _ :: _, [] => (false, 0)
  | word :: words, typed :: args =>
      if typed.isPrefixOf word then
        let (matched, i) := matchWords words args
        (matched, i + 1)
      else (false, 0)

/-- The loop over the table: `helprequested` and `matchcmd`. -/
def selectLoop (args : List (List Char)) (helprequested : Bool) :
    List Command → Bool × Option Command
  | [] => (helprequested, none)
  | cp :: rest =>
      if args.length < cp.ncmds then selectLoop args helprequested rest
      else
        let (matched, i) := matchWords cp.words args
        if args[i]? = some "--help".toList then selectLoop args true rest
        else if !matched then selectLoop args helprequested rest
        else (helprequested, some cp)

/-- Whether the typed word at position `i` could also be a word of `cp`.  There is
no result when the word of `cp` is the null pointer. -/
def ambiguousWith (cmd : Command) (args : List (List Char)) (i : Nat) (cp : Command) :
    Option Bool :=
  if cp.ncmds < i then some false
  else if cmd.words.take i ≠ cp.words.take i then some false
  else
    match cp.words[i]? with
    | none => none
    | some word =>
        if cmd.words[i]? = some word then some false
        else some ((args.getD i []).isPrefixOf word)

/-- `match` behind the inner loop, as far as it is zero. -/
def ambiguousAt (cmd : Command) (args : List (List Char)) (i : Nat) :
    List Command → Option Bool
  | [] => some false
  | cp :: rest =>
      (ambiguousWith cmd args i cp).bind (fun m => (ambiguousAt cmd args i rest).map (m || ·))

def ambiguityLoop (table : List Command) (cmd : Command) (args : List (List Char)) :
    List Nat → Option Int
  | [] => some 0
  | i :: rest =>
      (ambiguousAt cmd args i table).bind (fun m =>
        if m then some (-2) else ambiguityLoop table cmd args rest)

/-- `check_ambiguity`. -/
def checkAmbiguity (table : List Command) (cmd : Command) (args : List (List Char)) : Option Int :=
  ambiguityLoop table cmd args (List.range cmd.ncmds)

/-- What a command is called with. -/
structure Invocation where
  func : CommandFunction
  nargs : Int
  args : List (List Char)
deriving DecidableEq, Repr

/-- What `parse_args` returns, and the command it hands out. -/
structure Parsed where
  code : Int
  invocation : Option Invocation
deriving DecidableEq, Repr

/-- `parse_args` over a table; `args` is the command line without the program. -/
def parseArgsIn (table : List Command) (programname : List Char) (args : List (List Char)) :
    Option Parsed :=
  let isHelp := match args with
    | [] => true
    | a :: _ => a = "help".toList || a = "-h".toList || a = "--help".toList
  if isHelp then some ⟨0, none⟩
  else
    let (helprequested, matchcmd) := selectLoop args false table
    if helprequested then some ⟨0, none⟩
    else
      match matchcmd with
      | none => some ⟨-1, none⟩
      | some cmd =>
          let nargs : Int := args.length - cmd.ncmds
          (checkAmbiguity table cmd args).map (fun ambiguity =>
            if ambiguity ≠ 0 then ⟨-2, none⟩
            else if cmd.nargs < 0 ∧ cmd.nargs < -nargs then ⟨-2, none⟩
            else if 0 ≤ cmd.nargs ∧ cmd.nargs ≠ nargs ∧ cmd.nargs ≠ 999 then ⟨-2, none⟩
            else ⟨1, some ⟨cmd.func, nargs + 1,
              (getPrgname programname ++ " ".toList ++ cmd.verb) :: args.drop cmd.ncmds⟩⟩)

def parseArgs (programname : List Char) (args : List (List Char)) : Option Parsed :=
  parseArgsIn commands programname args

/-! ## The rule -/

/-- Every typed word begins the word at its position. -/
def Begins (words args : List (List Char)) : Prop :=
  ∀ (i : Nat) (a w : List Char), args[i]? = some a → words[i]? = some w → a <+: w

/-- The words of the verb: what stands between its blanks. -/
def Command.verbWords (c : Command) : List (List Char) :=
  c.verb.splitOn ' '

/-- The command line has a word for each of the words that `words` makes of the verb, and
each begins it. -/
def Command.Typed (c : Command) (words : Command → List (List Char))
    (args : List (List Char)) : Prop :=
  (words c).length ≤ args.length ∧ Begins (words c) args

/-- At every position, an entry with the same words before it that the typed word
could stand for has the same word there. -/
def Command.Unambiguous (c : Command) (words : Command → List (List Char))
    (table : List Command) (args : List (List Char)) : Prop :=
  ∀ (i : Nat) (a w : List Char), args[i]? = some a → (words c)[i]? = some w →
    ∀ e ∈ table, (words e).take i = (words c).take i →
      ∀ w', (words e)[i]? = some w' → a <+: w' → w' = w

/-- The command line stands for the command. -/
def Command.Meant (c : Command) (words : Command → List (List Char)) (table : List Command)
    (args : List (List Char)) : Prop :=
  c.Typed words args ∧ c.Unambiguous words table args

/-- At least as many arguments are left as the command needs. -/
def Command.Enough (c : Command) (args : List (List Char)) : Prop :=
  -c.nargs ≤ args.length - c.ncmds

/-- No verb consists of the first words of another. -/
def Apart (words : Command → List (List Char)) (table : List Command) : Prop :=
  ∀ c ∈ table, ∀ e ∈ table, words e <+: words c → e = c

section Rule

variable {table : List Command} {args : List (List Char)} {c cmd : Command}

theorem begins_cons {w a : List Char} {words args : List (List Char)} :
    Begins (w :: words) (a :: args) ↔ a <+: w ∧ Begins words args := by
  constructor
  · intro h
    exact ⟨h 0 a w rfl rfl, fun i b v hb hv => h (i + 1) b v hb hv⟩
  · intro h i b v hb hv
    cases i with
    | zero =>
        cases hb
        cases hv
        exact h.1
    | succ i => exact h.2 i b v hb hv

theorem matchWords_iff {words args : List (List Char)} (hlen : words.length ≤ args.length) :
    (matchWords words args).1 = true ↔ Begins words args := by
  induction words generalizing args with
  | nil =>
      constructor
      · intro _ i a w _ hw
        cases hw
      · intro _
        rfl
  | cons w words ih =>
      cases args with
      | nil => exact absurd hlen (by simp)
      | cons a args =>
          rw [begins_cons]
          unfold matchWords
          by_cases ha : a.isPrefixOf w = true
          · rw [if_pos ha]
            have hrest := ih (by simpa using hlen)
            exact hrest.trans ⟨fun h => ⟨List.isPrefixOf_iff_prefix.mp ha, h⟩, fun h => h.2⟩
          · rw [if_neg ha]
            constructor
            · intro h
              cases h
            · intro h
              exact absurd (List.isPrefixOf_iff_prefix.mpr h.1) ha

/-- The test of an entry. -/
def Command.typed (args : List (List Char)) (c : Command) : Bool :=
  c.ncmds ≤ args.length && (matchWords c.words args).1

theorem typed_iff : c.typed args = true ↔ c.Typed Command.words args := by
  unfold Command.typed Command.Typed
  rw [Bool.and_eq_true, decide_eq_true_iff]
  exact and_congr_right matchWords_iff

/-- Without a request for help, the loop finds the first entry that was typed. -/
theorem selectLoop_eq (hhelp : "--help".toList ∉ args) (table : List Command) :
    selectLoop args false table = (false, table.find? (Command.typed args)) := by
  induction table with
  | nil => rfl
  | cons cp rest ih =>
      unfold selectLoop
      by_cases hlen : args.length < cp.ncmds
      · have hno : cp.typed args = false := by
          unfold Command.typed
          rw [decide_eq_false (by omega), Bool.false_and]
        rw [if_pos hlen, ih, List.find?_cons_of_neg (by rw [hno]; simp)]
      · rw [if_neg hlen]
        have hnone : args[(matchWords cp.words args).2]? ≠ some "--help".toList := by
          intro h
          exact hhelp (List.mem_of_getElem? h)
        have htyped : cp.typed args = (matchWords cp.words args).1 := by
          unfold Command.typed
          rw [decide_eq_true (by omega), Bool.true_and]
        simp only [if_neg hnone]
        cases hmatch : (matchWords cp.words args).1 with
        | true =>
            rw [List.find?_cons_of_pos (by rw [htyped, hmatch])]
            rfl
        | false =>
            rw [List.find?_cons_of_neg (by rw [htyped, hmatch]; simp)]
            exact ih

/-- **At most one command is meant.**  An entry that was typed is the one that was
typed without ambiguity. -/
theorem typed_unique {words : Command → List (List Char)} (hapart : Apart words table)
    {e : Command} (hc : c ∈ table) (he : e ∈ table) (htyped : c.Typed words args)
    (hother : e.Typed words args) (hclear : c.Unambiguous words table args) : e = c := by
  have htake : ∀ i, i ≤ (words c).length → i ≤ (words e).length →
      (words e).take i = (words c).take i := by
    intro i
    induction i with
    | zero =>
        intro _ _
        rfl
    | succ i ih =>
        intro hic hie
        have hsame := ih (by omega) (by omega)
        obtain ⟨w, hw⟩ : ∃ w, (words c)[i]? = some w :=
          ⟨_, List.getElem?_eq_getElem (show i < (words c).length from hic)⟩
        obtain ⟨w', hw'⟩ : ∃ w', (words e)[i]? = some w' :=
          ⟨_, List.getElem?_eq_getElem (show i < (words e).length from hie)⟩
        obtain ⟨a, ha⟩ : ∃ a, args[i]? = some a :=
          ⟨_, List.getElem?_eq_getElem (Nat.lt_of_lt_of_le hic htyped.1)⟩
        have heq := hclear i a w ha hw e he hsame w' hw' (hother.2 i a w' ha hw')
        rw [List.take_add_one, List.take_add_one, hw, hw', hsame, heq]
  rcases Nat.le_total (words e).length (words c).length with hle | hle
  · have hpre := htake (words e).length hle (Nat.le_refl _)
    apply hapart c hc e he
    rw [show words e = (words e).take (words e).length from (List.take_length).symm, hpre]
    exact List.take_prefix _ _
  · have hpre := htake (words c).length (Nat.le_refl _) hle
    refine (hapart e he c hc ?_).symm
    rw [show words c = (words c).take (words c).length from (List.take_length).symm, ← hpre]
    exact List.take_prefix _ _

/-! ## The check for ambiguity -/

/-- The typed word at position `i` stands for another word of `cp`. -/
def clashes (cmd : Command) (args : List (List Char)) (i : Nat) (cp : Command) : Bool :=
  cp.words.take i = cmd.words.take i &&
    match cp.words[i]? with
    | none => false
    | some word => cmd.words[i]? ≠ some word && (args.getD i []).isPrefixOf word

/-- The null pointer at the end of an entry is not reached. -/
theorem ambiguousWith_eq (hapart : Apart Command.words table) (hcmd : cmd ∈ table) {cp : Command}
    (hcp : cp ∈ table) {i : Nat} (hi : i < cmd.ncmds) :
    ambiguousWith cmd args i cp = some (clashes cmd args i cp) := by
  unfold ambiguousWith clashes
  by_cases hshare : cp.words.take i = cmd.words.take i
  · have hlt : i < cp.words.length := by
      by_contra hge
      have hall : cp.words.take i = cp.words := List.take_of_length_le (by omega)
      have hpre : cp.words <+: cmd.words := by
        rw [← hall, hshare]
        exact List.take_prefix _ _
      have heq := hapart cmd hcmd cp hcp hpre
      rw [heq] at hge
      exact hge hi
    rw [if_neg (show ¬cp.ncmds < i by unfold Command.ncmds; omega),
      if_neg (not_not.mpr hshare.symm), List.getElem?_eq_getElem hlt]
    by_cases hword : cmd.words[i]? = some cp.words[i]
    · simp [hshare, hword]
    · simp [hshare, hword]
  · rw [decide_eq_false hshare, Bool.false_and]
    by_cases hlen : cp.ncmds < i
    · rw [if_pos hlen]
    · rw [if_neg hlen, if_pos (Ne.symm hshare)]

theorem ambiguousAt_eq (hapart : Apart Command.words table) (hcmd : cmd ∈ table) {i : Nat}
    (hi : i < cmd.ncmds) {l : List Command} (hl : ∀ cp ∈ l, cp ∈ table) :
    ambiguousAt cmd args i l = some (l.any (clashes cmd args i)) := by
  induction l with
  | nil => rfl
  | cons cp rest ih =>
      obtain ⟨hcp, hrest⟩ := List.forall_mem_cons.mp hl
      unfold ambiguousAt
      rw [ambiguousWith_eq hapart hcmd hcp hi, ih hrest, Option.bind_some, Option.map_some,
        List.any_cons]

theorem ambiguityLoop_eq (hapart : Apart Command.words table) (hcmd : cmd ∈ table) {l : List Nat}
    (hl : ∀ i ∈ l, i < cmd.ncmds) :
    ambiguityLoop table cmd args l =
      some (if l.any (fun i => table.any (clashes cmd args i)) then -2 else 0) := by
  induction l with
  | nil => rfl
  | cons i rest ih =>
      obtain ⟨hi, hrest⟩ := List.forall_mem_cons.mp hl
      unfold ambiguityLoop
      rw [ambiguousAt_eq hapart hcmd hi (fun cp hcp => hcp), Option.bind_some, ih hrest,
        List.any_cons]
      cases table.any (clashes cmd args i) <;> rfl

/-- No clash at any position is the rule. -/
theorem clashes_iff (htyped : cmd.Typed Command.words args) :
    (List.range cmd.ncmds).any (fun i => table.any (clashes cmd args i)) = false ↔
      cmd.Unambiguous Command.words table args := by
  have hget : ∀ {i : Nat} {a : List Char}, args[i]? = some a → args.getD i [] = a := by
    intro i a ha
    rw [List.getD_eq_getElem?_getD, ha]
    rfl
  constructor
  · intro hnone i a w ha hw e he hshare w' hw' hpre
    by_contra hne
    have hi : i < cmd.ncmds := (List.getElem?_eq_some_iff.mp hw).1
    have hclash : clashes cmd args i e = true := by
      unfold clashes
      rw [hw', hw, hget ha, decide_eq_true hshare, Bool.true_and]
      simp [Ne.symm hne, hpre]
    have hany : (List.range cmd.ncmds).any (fun i => table.any (clashes cmd args i)) = true :=
      List.any_eq_true.mpr ⟨i, List.mem_range.mpr hi, List.any_eq_true.mpr ⟨e, he, hclash⟩⟩
    rw [hnone] at hany
    cases hany
  · intro hclear
    rw [Bool.eq_false_iff]
    intro hany
    obtain ⟨i, hi, hany⟩ := List.any_eq_true.mp hany
    obtain ⟨e, he, hclash⟩ := List.any_eq_true.mp hany
    have hi : i < cmd.ncmds := List.mem_range.mp hi
    obtain ⟨w, hw⟩ : ∃ w, cmd.words[i]? = some w :=
      ⟨_, List.getElem?_eq_getElem (show i < cmd.words.length from hi)⟩
    obtain ⟨a, ha⟩ : ∃ a, args[i]? = some a :=
      ⟨_, List.getElem?_eq_getElem (Nat.lt_of_lt_of_le hi htyped.1)⟩
    unfold clashes at hclash
    rw [hw, hget ha, Bool.and_eq_true, decide_eq_true_iff] at hclash
    obtain ⟨hshare, hclash⟩ := hclash
    cases hw' : e.words[i]? with
    | none =>
        rw [hw'] at hclash
        cases hclash
    | some w' =>
        rw [hw'] at hclash
        simp only [Bool.and_eq_true, decide_eq_true_iff] at hclash
        obtain ⟨hne, hpre⟩ := hclash
        have heq := hclear i a w ha hw e he hshare w' hw' (List.isPrefixOf_iff_prefix.mp hpre)
        exact hne (by rw [heq])

/-- **The check is the rule**, and it does not touch the null pointer of an entry. -/
theorem checkAmbiguity_spec (hapart : Apart Command.words table) (hcmd : cmd ∈ table)
    (htyped : cmd.Typed Command.words args) :
    ∃ r, checkAmbiguity table cmd args = some r ∧
      (r = 0 ↔ cmd.Unambiguous Command.words table args) := by
  refine ⟨_, ambiguityLoop_eq hapart hcmd (fun i hi => List.mem_range.mp hi), ?_⟩
  rw [← clashes_iff htyped]
  cases (List.range cmd.ncmds).any (fun i => table.any (clashes cmd args i)) <;> simp

end Rule

/-! ## The result -/

/-- What a command gets: the program and the verb as its first argument, and the
arguments that were not used up. -/
def invocationOf (programname : List Char) (c : Command) (args : List (List Char)) : Invocation where
  func := c.func
  nargs := args.length - c.ncmds + 1
  args := (getPrgname programname ++ " ".toList ++ c.verb) :: args.drop c.ncmds

/-- No word asks for help. -/
def NoHelp (args : List (List Char)) : Prop :=
  ∀ a ∈ args, a ≠ "help".toList ∧ a ≠ "-h".toList ∧ a ≠ "--help".toList

theorem parseArgsIn_spec {table : List Command} (hapart : Apart Command.words table)
    (hneeds : ∀ c ∈ table, c.nargs < 0) (programname : List Char) {args : List (List Char)}
    (hargs : args ≠ []) (hhelp : NoHelp args) :
    ∃ r, parseArgsIn table programname args = some r ∧
      ((∃ c ∈ table, c.Meant Command.words table args ∧ c.Enough args ∧
          r = ⟨1, some (invocationOf programname c args)⟩) ∨
        (r.code < 0 ∧ r.invocation = none ∧
          ∀ c ∈ table, ¬(c.Meant Command.words table args ∧ c.Enough args))) := by
  obtain ⟨a, rest, rfl⟩ := List.exists_cons_of_ne_nil hargs
  obtain ⟨hword, hshort, hlong⟩ := hhelp a List.mem_cons_self
  have hfirst : (decide (a = "help".toList) || decide (a = "-h".toList) ||
      decide (a = "--help".toList)) = false := by
    simp only [hword, hshort, hlong, decide_false, Bool.or_false]
  have hnone : "--help".toList ∉ a :: rest := fun h => (hhelp _ h).2.2 rfl
  unfold parseArgsIn
  simp only [hfirst, selectLoop_eq hnone, Bool.false_eq_true, if_false]
  cases hfind : table.find? (Command.typed (a :: rest)) with
  | none =>
      refine ⟨_, rfl, Or.inr ⟨by decide, rfl, ?_⟩⟩
      intro c hc hmeant
      have hno := List.find?_eq_none.mp hfind c hc
      exact hno (typed_iff.mpr hmeant.1.1)
  | some cmd =>
      have hcmd : cmd ∈ table := List.mem_of_find?_eq_some hfind
      have htyped : cmd.Typed Command.words (a :: rest) := typed_iff.mp (List.find?_some hfind)
      obtain ⟨code, hcheck, hclear⟩ := @checkAmbiguity_spec table (a :: rest) cmd hapart hcmd htyped
      have honly : ∀ c ∈ table, c.Meant Command.words table (a :: rest) → cmd = c :=
        fun c hc hmeant => typed_unique hapart hc hcmd hmeant.1 htyped hmeant.2
      have hneg := hneeds cmd hcmd
      simp only [hcheck, Option.map_some]
      by_cases hcode : code = 0
      · have hmeant : cmd.Meant Command.words table (a :: rest) := ⟨htyped, hclear.mp hcode⟩
        by_cases henough : cmd.Enough (a :: rest)
        · refine ⟨_, rfl, Or.inl ⟨cmd, hcmd, hmeant, henough, ?_⟩⟩
          unfold Command.Enough at henough
          rw [if_neg (not_not.mpr hcode), if_neg (by omega), if_neg (by omega)]
          rfl
        · refine ⟨_, rfl, Or.inr ?_⟩
          have hfew := henough
          unfold Command.Enough at hfew
          rw [if_neg (not_not.mpr hcode), if_pos (by omega)]
          refine ⟨by decide, rfl, ?_⟩
          intro c hc hall
          rw [← honly c hc hall.1] at hall
          exact henough hall.2
      · refine ⟨_, rfl, Or.inr ?_⟩
        rw [if_pos hcode]
        refine ⟨by decide, rfl, ?_⟩
        intro c hc hall
        rw [← honly c hc hall.1] at hall
        exact hcode (hclear.mpr hall.1.2)

theorem commands_apart : Apart Command.words commands := by
  unfold Apart
  decide +kernel

theorem commands_verbsApart : Apart Command.verbWords commands := by
  unfold Apart
  decide +kernel

theorem commands_needs : ∀ c ∈ commands, c.nargs < 0 := by
  decide +kernel

theorem commands_func : ∀ c ∈ commands, ∀ e ∈ commands, c.func = e.func → c = e := by
  decide +kernel

/-- The rule for one command line.  `parse_args` returns 1 for a command exactly when the
typed words begin its words, no other entry could be meant at any of these positions, and
enough arguments are left.  At most one command is meant; it gets the program name and its
verb followed by the remaining arguments.  In all other cases the result is negative and
no command is run.  `check_ambiguity` does not come to the null pointer at the end of an
entry. -/
structure Resolves (words : Command → List (List Char)) (programname : List Char)
    (args : List (List Char)) : Prop where
  result : ∃ r, parseArgs programname args = some r ∧
    (∀ c ∈ commands, r = ⟨1, some (invocationOf programname c args)⟩ ↔
      c.Typed words args ∧ c.Unambiguous words commands args ∧ c.Enough args) ∧
    (r.code = 1 ∧ (∃ c ∈ commands, r.invocation = some (invocationOf programname c args)) ∨
      r.code < 0 ∧ r.invocation = none)
  unique : ∀ c ∈ commands, ∀ e ∈ commands,
    c.Meant words commands args → e.Meant words commands args → e = c
  inside : ∀ c ∈ commands, c.ncmds ≤ args.length →
    (checkAmbiguity commands c args).isSome = true

section Commands

variable {programname : List Char} {args : List (List Char)} {c : Command}

/-- **The rule holds of the words that `split_command` makes.** -/
theorem resolves_words (programname : List Char) (hargs : args ≠ []) (hhelp : NoHelp args) :
    Resolves Command.words programname args := by
  have hunique : ∀ c ∈ commands, ∀ e ∈ commands,
      c.Meant Command.words commands args → e.Meant Command.words commands args → e = c :=
    fun c hc e he hmeant hother =>
      typed_unique commands_apart hc he hmeant.1 hother.1 hmeant.2
  refine ⟨?_, hunique, ?_⟩
  · obtain ⟨r, hr, hcases⟩ := parseArgsIn_spec commands_apart commands_needs programname hargs hhelp
    refine ⟨r, hr, ?_, ?_⟩
    · intro c hc
      rcases hcases with ⟨e, he, hmeant, henough, heq⟩ | ⟨hneg, hno, hnone⟩
      · constructor
        · intro hrc
          have hsame : invocationOf programname c args = invocationOf programname e args := by
            rw [heq] at hrc
            exact (Option.some.inj (congrArg Parsed.invocation hrc)).symm
          have hce : c = e := commands_func c hc e he (congrArg Invocation.func hsame)
          rw [hce]
          exact ⟨hmeant.1, hmeant.2, henough⟩
        · intro hall
          rw [heq, hunique c hc e he ⟨hall.1, hall.2.1⟩ hmeant]
      · constructor
        · intro hrc
          rw [hrc] at hneg
          exact absurd hneg (show ¬(1 : Int) < 0 by decide)
        · intro hall
          exact absurd ⟨⟨hall.1, hall.2.1⟩, hall.2.2⟩ (hnone c hc)
    · rcases hcases with ⟨e, he, -, -, rfl⟩ | ⟨hneg, hno, -⟩
      · exact Or.inl ⟨rfl, e, he, rfl⟩
      · exact Or.inr ⟨hneg, hno⟩
  · intro c hc _
    rw [checkAmbiguity, ambiguityLoop_eq commands_apart hc (fun i hi => List.mem_range.mp hi)]
    rfl

/-! ## The words of the verbs -/

/-- The entry with a word between two others. -/
def disableEmulation : Command :=
  ⟨.disable512BEmulation, -1, "disable 512B emulation".toList⟩

theorem disableEmulation_words :
    disableEmulation.words = ["disable".toList, "512B ".toList, "emulation".toList] := by
  decide

theorem disableEmulation_verbWords :
    disableEmulation.verbWords = ["disable".toList, "512B".toList, "emulation".toList] := by
  decide

theorem disableEmulation_mem : disableEmulation ∈ commands := by
  simp [commands, disableEmulation]

theorem words_verbWords :
    ∀ c ∈ commands, c = disableEmulation ∨ c.words = c.verbWords := by
  decide +kernel

/-- Where two verbs part, `split_command` makes the words of the verbs. -/
theorem commands_part : ∀ c ∈ commands, ∀ e ∈ commands, e = c ∨ ∀ i < 3,
    (e.words.take i = c.words.take i ↔ e.verbWords.take i = c.verbWords.take i) ∧
      (e.words.take i = c.words.take i →
        e.words[i]? = e.verbWords[i]? ∧ c.words[i]? = c.verbWords[i]?) := by
  decide +kernel

theorem commands_length : ∀ c ∈ commands,
    c.words.length ≤ 3 ∧ c.verbWords.length = c.words.length := by
  decide +kernel

/-- No other verb begins with a `d`. -/
theorem commands_disable : ∀ c ∈ commands, ∀ w ∈ c.words.head?, w.head? = some 'd' →
    c = disableEmulation := by
  decide +kernel

theorem unambiguous_iff (hc : c ∈ commands) :
    c.Unambiguous Command.words commands args ↔
      c.Unambiguous Command.verbWords commands args := by
  obtain ⟨hmax, hlen⟩ := commands_length c hc
  constructor
  · intro h i a w ha hw e he hshare w' hw' hpre
    have hi : i < c.verbWords.length := (List.getElem?_eq_some_iff.mp hw).1
    rcases commands_part c hc e he with rfl | hpart
    · exact Option.some.inj (hw'.symm.trans hw)
    · obtain ⟨hiff, hsame⟩ := hpart i (by omega)
      obtain ⟨hwe, hwc⟩ := hsame (hiff.mpr hshare)
      exact h i a w ha (hwc.trans hw) e he (hiff.mpr hshare) w' (hwe.trans hw') hpre
  · intro h i a w ha hw e he hshare w' hw' hpre
    have hi : i < c.words.length := (List.getElem?_eq_some_iff.mp hw).1
    rcases commands_part c hc e he with rfl | hpart
    · exact Option.some.inj (hw'.symm.trans hw)
    · obtain ⟨hiff, hsame⟩ := hpart i (by omega)
      obtain ⟨hwe, hwc⟩ := hsame hshare
      exact h i a w ha (hwc.symm.trans hw) e he (hiff.mp hshare) w' (hwe.symm.trans hw') hpre

theorem begins_three {w₀ w₁ w₂ a₀ a₁ a₂ : List Char} {rest : List (List Char)} :
    Begins [w₀, w₁, w₂] (a₀ :: a₁ :: a₂ :: rest) ↔ a₀ <+: w₀ ∧ a₁ <+: w₁ ∧ a₂ <+: w₂ := by
  rw [begins_cons, begins_cons, begins_cons]
  have hnil : Begins [] rest := by
    intro i a w _ hw
    cases hw
  simp [hnil]

theorem begins_blank {a : List Char} :
    a <+: "512B ".toList ↔ a = "512B ".toList ∨ a <+: "512B".toList := by
  show a <+: "512B".toList ++ [' '] ↔ a = "512B".toList ++ [' '] ∨ a <+: "512B".toList
  exact List.prefix_concat_iff

/-- The word behind `disable` is typed with the blank that `split_command` leaves on it,
and the command line is complete otherwise. -/
def KeepsBlank : List (List Char) → Prop
  | first :: second :: third :: _ :: _ =>
      first ≠ [] ∧ first <+: "disable".toList ∧ second = "512B ".toList ∧
        third <+: "emulation".toList
  | _ => False

/-- The entry is typed for the words of the verb if it is for those of `split_command`
and the blank is not typed; this needs three words. -/
theorem typed_disableEmulation :
    disableEmulation.Typed Command.words args ↔
      disableEmulation.Typed Command.verbWords args ∨
        ∃ a₀ a₂ rest, args = a₀ :: "512B ".toList :: a₂ :: rest ∧
          a₀ <+: "disable".toList ∧ a₂ <+: "emulation".toList := by
  unfold Command.Typed
  rw [disableEmulation_words, disableEmulation_verbWords]
  rcases args with - | ⟨a₀, - | ⟨a₁, - | ⟨a₂, rest⟩⟩⟩
  · simp
  · simp
  · simp
  · rw [begins_three, begins_three, begins_blank]
    constructor
    · rintro ⟨hlen, h₀, rfl | h₁, h₂⟩
      · exact Or.inr ⟨a₀, a₂, rest, rfl, h₀, h₂⟩
      · exact Or.inl ⟨hlen, h₀, h₁, h₂⟩
    · rintro (⟨hlen, h₀, h₁, h₂⟩ | ⟨b₀, b₂, l, heq, h₀, h₂⟩)
      · exact ⟨hlen, h₀, Or.inr h₁, h₂⟩
      · cases heq
        exact ⟨by simp, h₀, Or.inl rfl, h₂⟩

theorem enough_disableEmulation : disableEmulation.Enough args ↔ 4 ≤ args.length := by
  unfold Command.Enough Command.ncmds
  rw [disableEmulation_words]
  simp only [disableEmulation, List.length_cons, List.length_nil]
  omega

/-- The first word is no empty word: that could stand for any verb. -/
theorem first_ne_nil {a : List Char} {rest : List (List Char)}
    (hclear : disableEmulation.Unambiguous Command.words commands (a :: rest)) : a ≠ [] := by
  rintro rfl
  have hdump : (⟨.dumpExtcsd, -1, "extcsd dump".toList⟩ : Command) ∈ commands :=
    List.mem_cons_self
  have heq := hclear 0 [] "disable".toList rfl rfl _ hdump rfl "extcsd".toList rfl
    List.nil_prefix
  exact absurd heq (by decide)

/-- Without the blank, the two ways to take the verbs apart ask for the same command
lines. -/
theorem complete_iff (hblank : ¬KeepsBlank args) (hc : c ∈ commands) :
    c.Typed Command.words args ∧ c.Unambiguous Command.words commands args ∧ c.Enough args ↔
      c.Typed Command.verbWords args ∧ c.Unambiguous Command.verbWords commands args ∧
        c.Enough args := by
  rw [← unambiguous_iff hc]
  rcases words_verbWords c hc with rfl | hsame
  · rw [typed_disableEmulation]
    refine ⟨?_, fun h => ⟨Or.inl h.1, h.2⟩⟩
    rintro ⟨htyped | ⟨a₀, a₂, rest, rfl, h₀, h₂⟩, hclear, henough⟩
    · exact ⟨htyped, hclear, henough⟩
    · cases rest with
      | nil => exact absurd (enough_disableEmulation.mp henough) (by simp)
      | cons device rest =>
          exact absurd ⟨first_ne_nil hclear, h₀, rfl, h₂⟩ hblank
  · unfold Command.Typed
    rw [hsame]

/-- No other verb has a first word that begins like this one. -/
theorem unambiguous_disableEmulation {a : List Char} {rest : List (List Char)} (hne : a ≠ [])
    (hpre : a <+: "disable".toList) :
    disableEmulation.Unambiguous Command.words commands (a :: rest) := by
  obtain ⟨c, l, rfl⟩ := List.exists_cons_of_ne_nil hne
  have hhead : c = 'd' := (List.cons_prefix_cons.mp hpre).1
  subst hhead
  intro i b w hb hw e he hshare w' hw' hb'
  have honly : e = disableEmulation := by
    cases i with
    | zero =>
        cases hb
        obtain ⟨t, rfl⟩ := hb'
        have hfirst : ('d' :: (l ++ t)) ∈ e.words.head? := by
          rw [List.head?_eq_getElem?]
          exact hw'
        exact commands_disable e he _ hfirst rfl
    | succ i =>
        refine commands_disable e he "disable".toList ?_ rfl
        have htake := congrArg List.head? hshare
        rw [List.head?_take, List.head?_take] at htake
        simpa [disableEmulation_words] using htake
  rw [honly] at hw'
  exact Option.some.inj (hw'.symm.trans hw)

/-- With the blank, the command is run. -/
theorem complete_of_keepsBlank (hblank : KeepsBlank args) :
    disableEmulation.Typed Command.words args ∧
      disableEmulation.Unambiguous Command.words commands args ∧
      disableEmulation.Enough args ∧ ¬disableEmulation.Typed Command.verbWords args := by
  rcases args with - | ⟨a₀, - | ⟨a₁, - | ⟨a₂, - | ⟨device, rest⟩⟩⟩⟩
  · exact hblank.elim
  · exact hblank.elim
  · exact hblank.elim
  · exact hblank.elim
  · obtain ⟨hne, h₀, rfl, h₂⟩ := hblank
    refine ⟨typed_disableEmulation.mpr (Or.inr ⟨a₀, a₂, _, rfl, h₀, h₂⟩),
      unambiguous_disableEmulation hne h₀, enough_disableEmulation.mpr (by simp), ?_⟩
    rintro ⟨-, hbegins⟩
    rw [disableEmulation_verbWords, begins_three] at hbegins
    have hblank : ¬"512B ".toList <+: "512B".toList := by decide
    exact hblank hbegins.2.1

/-- Such a command line runs a command that the rule does not ask for. -/
theorem keepsBlank_unresolved (hargs : args ≠ []) (hhelp : NoHelp args)
    (hblank : KeepsBlank args) : ¬Resolves Command.verbWords programname args := by
  rintro ⟨⟨r, hr, hrule, -⟩, -, -⟩
  obtain ⟨r', hr', hrule', -⟩ := (resolves_words programname hargs hhelp).result
  have hsame : r' = r := Option.some.inj (hr'.symm.trans hr)
  obtain ⟨htyped, hclear, henough, hno⟩ := complete_of_keepsBlank hblank
  have hruns := (hrule' disableEmulation disableEmulation_mem).mpr ⟨htyped, hclear, henough⟩
  rw [hsame] at hruns
  exact hno ((hrule disableEmulation disableEmulation_mem).mp hruns).1

end Commands

/-- **Which command a command line stands for.**  Unless help is asked for, `parse_args`
follows the rule for the words of the verbs, with one exception: when the word `512B` is
typed with the blank behind it. -/
theorem parse_args_resolves_iff (programname : List Char) (args : List (List Char))
    (hargs : args ≠ []) (hhelp : NoHelp args) :
    Resolves Command.verbWords programname args ↔ ¬KeepsBlank args := by
  constructor
  · intro h hblank
    exact keepsBlank_unresolved hargs hhelp hblank h
  · intro hblank
    obtain ⟨⟨r, hr, hrule, hcode⟩, -, hinside⟩ := resolves_words programname hargs hhelp
    refine ⟨⟨r, hr, ?_, hcode⟩, ?_, hinside⟩
    · intro c hc
      exact (hrule c hc).trans (complete_iff hblank hc)
    · intro c hc e he hmeant hother
      exact typed_unique commands_verbsApart hc he hmeant.1 hother.1 hmeant.2

/-- `mmc disable '512B ' emulation /dev/block/mmcblk0`. -/
def blankLine : List (List Char) :=
  ["disable".toList, "512B ".toList, "emulation".toList, "/dev/block/mmcblk0".toList]

theorem blankLine_noHelp : NoHelp blankLine := by
  unfold NoHelp
  decide

theorem parse_args_resolves_iff_blankLine :
    NoHelp blankLine ∧
      (Resolves Command.verbWords "/system/bin/mmc".toList blankLine ↔ ¬KeepsBlank blankLine) :=
  ⟨blankLine_noHelp, parse_args_resolves_iff "/system/bin/mmc".toList blankLine (by decide)
    blankLine_noHelp⟩

/-- The emulation is disabled although `512B ` begins no word of the verb. -/
theorem blank_resolved :
    ¬∀ (programname : List Char) (args : List (List Char)), args ≠ [] → NoHelp args →
      Resolves Command.verbWords programname args := by
  intro hall
  have hblank : KeepsBlank blankLine := ⟨by decide, by decide, rfl, by decide⟩
  exact keepsBlank_unresolved (by decide) blankLine_noHelp hblank
    (hall "/system/bin/mmc".toList blankLine (by decide) blankLine_noHelp)

example : parseArgs "/system/bin/mmc".toList ["ext".toList, "".toList] = some ⟨-2, none⟩ := by
  decide +kernel

example : parseArgs "/system/bin/mmc".toList ["bootb".toList, "".toList, "a".toList, "b".toList,
    "c".toList, "d".toList] = some ⟨1, some ⟨.bootBusConditionsSet, 5,
      ["mmc bootbus set".toList, "a".toList, "b".toList, "c".toList, "d".toList]⟩⟩ := by
  decide +kernel

end MmcUtils
