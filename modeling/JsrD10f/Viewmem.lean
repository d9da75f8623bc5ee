import Mathlib.Data.List.Basic
import Mathlib.Algebra.Group.Nat.Defs

/-!
# `viewmem`

The tool maps a part of a memory device and writes it to the standard output, one
`unsigned long` of four bytes at a time.  It maps from the page of the address on,
and as many bytes as the size has whole pages, but a page at least.  So the part of
the last page is missing when the size is more than a page and not a multiple of it,
and so is the end when the address is not at the start of its page.  The loop rounds
the size up to a multiple of four.

All numbers have 32 bits.  The step of the loop wraps for the three largest sizes,
and the loop does not end then.
-/

namespace Viewmem

/-- What `getpagesize` returns: a power of two that is an `int`. -/
structure PageSize where
  exponent : Nat
  isInt : exponent < 31
deriving Repr

def PageSize.bytes (p : PageSize) : Nat :=
  2 ^ p.exponent

def PageSize.toUInt32 (p : PageSize) : UInt32 :=
  .ofNat p.bytes

/-- `~(getpagesize()-1)`. -/
def PageSize.mask (p : PageSize) : UInt32 :=
  ~~~(p.toUInt32 - 1)

/-- The address that is mapped. -/
def newaddr (p : PageSize) (addr : UInt32) : UInt32 :=
  addr &&& p.mask

/-- `MAX`. -/
def maximum (x y : UInt32) : UInt32 :=
  if x > y then x else y

/-- The length that is mapped. -/
def mappedLength (p : PageSize) (size : UInt32) : UInt32 :=
  maximum p.toUInt32 (size &&& p.mask)

/-- The values of `i` in the loop, which has not ended if there are none. -/
def indices (size : UInt32) : Nat → UInt32 → Option (List Nat)
  | 0, _ => none
  | fuel + 1, i => if i < size then (indices size fuel (i + 4)).map (i.toNat :: ·) else some []

/-- What the tool returns, the offsets of the words that it has read in the mapped
region, and what it has written. -/
structure Output where
  ret : Int
  reads : List Nat
  stdout : List UInt8
deriving Repr

/-- The word at an offset of the mapped region. -/
def wordAt (device : Nat → UInt8) (base off : Nat) : List UInt8 :=
  (List.range 4).map fun k => device (base + off + k)

/-- The loop, over a device that has been mapped. -/
def dump (p : PageSize) (device : Nat → UInt8) (addr size : UInt32) (fuel : Nat) :
    Option Output :=
  (indices size fuel 0).map fun l =>
    let reads := l.map ((addr - newaddr p addr).toNat + ·)
    ⟨0, reads, reads.flatMap (wordAt device (newaddr p addr).toNat)⟩

/-- The library and the system: how a number is read, which descriptor a file has, and
whether a mapping of some length at some address succeeds. -/
structure Host where
  page : PageSize
  sscanf : List Char → Option UInt32
  openFile : List Char → Int
  mmap : Int → UInt32 → UInt32 → Bool
  device : List Char → Nat → UInt8

def failed : Option Output :=
  some ⟨-1, [], []⟩

/-- `main` with the numbers from the command line. -/
def view (host : Host) (path : List Char) (addr size : UInt32) (fuel : Nat) : Option Output :=
  let fd := host.openFile path
  -- a failed `open` is left to `mmap`
  if fd = 0 then failed
  else if host.mmap fd (mappedLength host.page size) (newaddr host.page addr) then
    dump host.page (host.device path) addr size fuel
  else failed

def main (host : Host) (argv : List (List Char)) (fuel : Nat) : Option Output :=
  match argv[1]?.bind host.sscanf with
  | none => failed
  | some addr =>
      match argv[2]? with
      | none => view host "/dev/mem".toList addr 4 fuel
      | some arg =>
          match host.sscanf arg with
          | none => failed
          | some size => view host (argv[3]?.getD "/dev/mem".toList) addr size fuel

/-! ## What is expected -/

/-- The loop ends.  It reads only words that lie in the mapped region, those at the
address and behind it one after the other, and writes as many bytes as were asked
for. -/
def Dumps (p : PageSize) (device : Nat → UInt8) (addr size : UInt32) : Prop :=
  ∃ fuel o, dump p device addr size fuel = some o ∧
    (∀ off ∈ o.reads, off + 4 ≤ (mappedLength p size).toNat) ∧
    o.reads.map ((newaddr p addr).toNat + ·) =
      (List.range o.reads.length).map (addr.toNat + 4 * ·) ∧
    o.stdout.length = size.toNat

/-- Whole words, from inside one page or from whole pages. -/
def Fits (p : PageSize) (addr size : UInt32) : Prop :=
  size.toNat % 4 = 0 ∧
    (size.toNat = 0 ∨ addr.toNat % p.bytes + size.toNat ≤ p.bytes ∨
      (p.bytes ∣ addr.toNat ∧ p.bytes ∣ size.toNat))

/-! ## Pages -/

theorem PageSize.bytes_pos (p : PageSize) : 0 < p.bytes :=
  Nat.two_pow_pos p.exponent

theorem PageSize.bytes_lt (p : PageSize) : p.bytes < 2147483648 :=
  Nat.pow_lt_pow_right (by decide) p.isInt

theorem PageSize.toNat_toUInt32 (p : PageSize) : p.toUInt32.toNat = p.bytes := by
  have hlt := p.bytes_lt
  rw [toUInt32, UInt32.toNat_ofNat']
  omega

theorem PageSize.toNat_mask (p : PageSize) : p.mask.toNat = 2 ^ 32 - (p.bytes - 1 + 1) := by
  have hpos := p.bytes_pos
  have hone : (1 : UInt32) ≤ p.toUInt32 := by
    rw [UInt32.le_iff_toNat_le, p.toNat_toUInt32]
    exact hpos
  rw [mask, UInt32.toNat_not, UInt32.toNat_sub_of_le _ _ hone, p.toNat_toUInt32]
  change 4294967296 - 1 - (p.bytes - 1) = 4294967296 - (p.bytes - 1 + 1)
  omega

/-- Without its low bits a number is a multiple of the page. -/
theorem toNat_and_mask (p : PageSize) (x : UInt32) :
    (x &&& p.mask).toNat = p.bytes * (x.toNat / p.bytes) := by
  rw [UInt32.toNat_and, p.toNat_mask]
  apply Nat.eq_of_testBit_eq
  intro i
  have hlow : p.bytes - 1 < 2 ^ 32 := by
    have hlt := p.bytes_lt
    omega
  rw [Nat.testBit_and, Nat.testBit_two_pow_sub_succ hlow, PageSize.bytes,
    Nat.testBit_two_pow_mul, Nat.testBit_two_pow_sub_one, Nat.testBit_div_two_pow]
  by_cases hi : p.exponent ≤ i
  · by_cases hbit : i < 32
    · simp [hi, hbit, Nat.not_lt.mpr hi, Nat.sub_add_cancel hi]
    · have hzero : x.toNat.testBit i = false :=
        Nat.testBit_lt_two_pow (Nat.lt_of_lt_of_le x.toNat_lt
          (Nat.pow_le_pow_right (by decide) (Nat.not_lt.mp hbit)))
      simp [hbit, hzero, Nat.sub_add_cancel hi]
  · simp [hi, Nat.lt_of_not_le hi]

/-- The offset of the address in its page. -/
theorem toNat_sub_newaddr (p : PageSize) (addr : UInt32) :
    (addr - newaddr p addr).toNat = addr.toNat % p.bytes := by
  have hparts := Nat.div_add_mod addr.toNat p.bytes
  have hmask := toNat_and_mask p addr
  have hle : newaddr p addr ≤ addr := by
    rw [UInt32.le_iff_toNat_le, newaddr, hmask]
    omega
  rw [UInt32.toNat_sub_of_le _ _ hle, newaddr, hmask]
  omega

theorem toNat_mappedLength (p : PageSize) (size : UInt32) :
    (mappedLength p size).toNat = max p.bytes (p.bytes * (size.toNat / p.bytes)) := by
  unfold mappedLength maximum
  split
  · rename_i hgt
    have hlt := UInt32.lt_iff_toNat_lt.mp hgt
    rw [toNat_and_mask, p.toNat_toUInt32] at hlt
    rw [p.toNat_toUInt32]
    omega
  · rename_i hgt
    have hle := UInt32.le_iff_toNat_le.mp (UInt32.not_lt.mp hgt)
    rw [toNat_and_mask, p.toNat_toUInt32] at hle
    rw [toNat_and_mask]
    omega

/-! ## The loop -/

/-- The step of the loop. -/
theorem toNat_add_four (i : UInt32) : (i + 4).toNat = (i.toNat + 4) % 4294967296 := by
  rw [UInt32.toNat_add]
  rfl

/-- A loop that ends has counted by four up to the size, and has not wrapped. -/
theorem indices_eq {size i : UInt32} {fuel : Nat} {l : List Nat} (hi : i.toNat % 4 = 0)
    (h : indices size fuel i = some l) :
    l = (List.range ((size.toNat - i.toNat + 3) / 4)).map (i.toNat + 4 * ·) ∧
      (i.toNat < size.toNat → size.toNat ≤ 4294967292) := by
  induction fuel generalizing i l with
  | zero => cases h
  | succ fuel ih =>
      simp only [indices] at h
      split at h
      · rename_i hlt
        have hlt := UInt32.lt_iff_toNat_lt.mp hlt
        obtain ⟨rest, hrest, rfl⟩ := Option.map_eq_some_iff.mp h
        have hnext := toNat_add_four i
        have hbound := i.toNat_lt
        obtain ⟨hcount, hwrap⟩ := ih (by omega) hrest
        -- after a wrap the loop would start again
        have hstep : (i + 4).toNat = i.toNat + 4 := by omega
        rw [hstep] at hcount hwrap
        refine ⟨?_, by omega⟩
        have hn : (size.toNat - i.toNat + 3) / 4 = (size.toNat - (i.toNat + 4) + 3) / 4 + 1 := by
          omega
        rw [hcount, hn, List.range_succ_eq_map, List.map_cons, List.map_map, Nat.mul_zero,
          Nat.add_zero]
        congr 1
        apply List.map_congr_left
        intro k _
        simp only [Function.comp_apply]
        omega
      · rename_i hge
        have hge := UInt32.le_iff_toNat_le.mp (UInt32.not_lt.mp hge)
        cases h
        have hn : (size.toNat - i.toNat + 3) / 4 = 0 := by omega
        rw [hn]
        exact ⟨rfl, by omega⟩

/-- The loop ends for all sizes that leave room for its last step. -/
theorem indices_some {size : UInt32} (hsize : size.toNat ≤ 4294967292) (m : Nat) {i : UInt32}
    (hm : size.toNat ≤ i.toNat + 4 * m) : ∃ l, indices size (m + 1) i = some l := by
  induction m generalizing i with
  | zero =>
      have hge : ¬ i < size := by
        rw [UInt32.lt_iff_toNat_lt]
        omega
      exact ⟨[], by rw [indices, if_neg hge]⟩
  | succ m ih =>
      rw [indices]
      by_cases hlt : i < size
      · have hnat := UInt32.lt_iff_toNat_lt.mp hlt
        have hnext := toNat_add_four i
        obtain ⟨l, hl⟩ := ih (i := i + 4) (by omega)
        exact ⟨i.toNat :: l, by rw [if_pos hlt, hl, Option.map_some]⟩
      · exact ⟨[], by rw [if_neg hlt]⟩

/-- The offsets of the words that are read. -/
def offsets (p : PageSize) (addr size : UInt32) : List Nat :=
  (List.range ((size.toNat + 3) / 4)).map (addr.toNat % p.bytes + 4 * ·)

theorem dump_eq {p : PageSize} {device : Nat → UInt8} {addr size : UInt32} {fuel : Nat}
    {o : Output} (h : dump p device addr size fuel = some o) :
    o.reads = offsets p addr size ∧
      o.stdout = (offsets p addr size).flatMap (wordAt device (newaddr p addr).toNat) := by
  obtain ⟨l, hl, rfl⟩ := Option.map_eq_some_iff.mp h
  obtain ⟨hcount, -⟩ := indices_eq rfl hl
  have hreads : l.map ((addr - newaddr p addr).toNat + ·) = offsets p addr size := by
    rw [hcount, toNat_sub_newaddr, offsets, List.map_map]
    apply List.map_congr_left
    intro k _
    simp
  exact ⟨hreads, by rw [← hreads]⟩

theorem length_stdout (device : Nat → UInt8) (base : Nat) (l : List Nat) :
    (l.flatMap (wordAt device base)).length = 4 * l.length := by
  induction l with
  | nil => rfl
  | cons off l ih =>
      have hword : (wordAt device base off).length = 4 := by simp [wordAt]
      rw [List.flatMap_cons, List.length_append, hword, ih, List.length_cons]
      omega

/-- The words are those at the address and behind it. -/
theorem map_offsets (p : PageSize) (addr size : UInt32) :
    (offsets p addr size).map ((newaddr p addr).toNat + ·) =
      (List.range (offsets p addr size).length).map (addr.toNat + 4 * ·) := by
  have hparts := Nat.div_add_mod addr.toNat p.bytes
  have hbase : (newaddr p addr).toNat = p.bytes * (addr.toNat / p.bytes) := toNat_and_mask p addr
  rw [offsets, List.map_map, List.length_map, List.length_range]
  apply List.map_congr_left
  intro k _
  simp only [Function.comp_apply]
  omega

/-- The last word decides. -/
theorem offsets_inside_iff (p : PageSize) (addr size : UInt32) (len : Nat) :
    (∀ off ∈ offsets p addr size, off + 4 ≤ len) ↔
      size.toNat = 0 ∨ addr.toNat % p.bytes + 4 * ((size.toNat + 3) / 4) ≤ len := by
  simp only [offsets, List.mem_map, List.mem_range, forall_exists_index, and_imp,
    forall_apply_eq_imp_iff₂]
  constructor
  · intro h
    rcases Nat.eq_zero_or_pos size.toNat with hzero | hpos
    · exact .inl hzero
    · have hlast := h ((size.toNat + 3) / 4 - 1) (by omega)
      exact .inr (by omega)
  · rintro (hzero | hle) k hk
    · omega
    · omega

/-- What is mapped is enough for part of a page, or for whole pages. -/
theorem room_iff (p : PageSize) (addr size : UInt32) :
    addr.toNat % p.bytes + size.toNat ≤ (mappedLength p size).toNat ↔
      addr.toNat % p.bytes + size.toNat ≤ p.bytes ∨
        (p.bytes ∣ addr.toNat ∧ p.bytes ∣ size.toNat) := by
  have hsize := Nat.div_add_mod size.toNat p.bytes
  rw [toNat_mappedLength, Nat.dvd_iff_mod_eq_zero, Nat.dvd_iff_mod_eq_zero]
  omega

theorem fits_of_dumps {p : PageSize} {device : Nat → UInt8} {addr size : UInt32}
    (h : Dumps p device addr size) : Fits p addr size := by
  obtain ⟨fuel, o, hdump, hinside, -, hlength⟩ := h
  obtain ⟨hreads, hstdout⟩ := dump_eq hdump
  rw [hstdout, length_stdout, offsets, List.length_map, List.length_range] at hlength
  rw [hreads, offsets_inside_iff, hlength, room_iff] at hinside
  exact ⟨by omega, hinside⟩

theorem dumps_of_fits {p : PageSize} (device : Nat → UInt8) {addr size : UInt32}
    (h : Fits p addr size) : Dumps p device addr size := by
  obtain ⟨hwords, hroom⟩ := h
  rw [← room_iff] at hroom
  have hbound := size.toNat_lt
  have hsize : size.toNat ≤ 4294967292 := by omega
  have hzero : (0 : UInt32).toNat = 0 := rfl
  obtain ⟨l, hl⟩ := indices_some hsize (size.toNat / 4) (i := 0) (by omega)
  obtain ⟨o, ho⟩ : ∃ o, dump p device addr size (size.toNat / 4 + 1) = some o := by
    rw [dump, hl]
    exact ⟨_, rfl⟩
  obtain ⟨hreads, hstdout⟩ := dump_eq ho
  have hcount : 4 * ((size.toNat + 3) / 4) = size.toNat := by omega
  refine ⟨_, o, ho, ?_, ?_, ?_⟩
  · rw [hreads, offsets_inside_iff, hcount]
    exact hroom
  · rw [hreads]
    exact map_offsets p addr size
  · rw [hstdout, length_stdout, offsets, List.length_map, List.length_range]
    exact hcount

/-- **What `viewmem` writes.**  The words lie in what was mapped, and are as many bytes as
were asked for, exactly for a multiple of four bytes that is nothing, or lies in one
page, or starts with a page and consists of pages. -/
theorem dumps_iff (p : PageSize) (device : Nat → UInt8) (addr size : UInt32) :
    Dumps p device addr size ↔ Fits p addr size :=
  ⟨fits_of_dumps, dumps_of_fits device⟩

/-- Two bytes are written as four.  The last word of a page with the one behind it, and a
page and a half, end behind what was mapped. -/
theorem dumps_fails :
    ¬ Dumps ⟨12, by decide⟩ (fun _ => 0) 0x1000 2 ∧
    ¬ Dumps ⟨12, by decide⟩ (fun _ => 0) 0x1FFC 8 ∧
    ¬ Dumps ⟨12, by decide⟩ (fun _ => 0) 0x1000 0x1800 := by
  refine ⟨fun h => ?_, fun h => ?_, fun h => ?_⟩
  · exact absurd (fits_of_dumps h).1 (by decide)
  · exact absurd (fits_of_dumps h).2 (by decide)
  · exact absurd (fits_of_dumps h).2 (by decide)

end Viewmem
