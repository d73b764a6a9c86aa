/-
**Words up to letter case.**

A word of ASCII characters is recognised in any letter case.  Which characters then count as one of
its letters is more than the letter and its capital: the dotless and the dotted `i` count as an `i`,
the long `ſ` as an `s`, and the Kelvin sign as a `k`.  Here each character is given the ASCII
character that it counts as, and a text fits a word exactly if its characters count as those of the
word.

Main definitions:

* `Text.IsPlain` — the ASCII characters without capitals;
* `Text.plainLetter` — the ASCII character that a character counts as;
* `Text.Alike` — a text that fits a word up to letter case.

Main results:

* `Text.sameLetter_iff` — **what counts as a plain character**;
* `Text.alike_iff` — **what fits a word of plain characters**;
* `Text.afterCaseless?_eq_some_iff` — a word at the start of a text, in any letter case.
-/
import EventLayer.Proofs.Text.Scanning

set_option autoImplicit false
set_option relaxedAutoImplicit false

namespace EventLayer.Text

/-! ### Lower-case forms -/

/-- The sign for the unit of temperature, of which the lower-case form is a `k`. -/
def kelvinSign : Char := Char.ofNat 0x212a

/-- A number of no character would stand for the zero character. -/
theorem toNat_ofNat_of_pos {n : Nat} (h : 0 < (Char.ofNat n).toNat) : (Char.ofNat n).toNat = n := by
  by_cases hvalid : n.isValidChar
  · have heq : Char.ofNat n = Char.ofNatAux n hvalid := dif_pos hvalid
    rw [heq]
    rfl
  · have heq : Char.ofNat n = Char.ofNat 0 := dif_neg hvalid
    rw [heq] at h
    cases h

theorem CaseShift.bounds {s : CaseShift} {n m : Nat} (h : s.apply? n = some m) (hm : 0 < m) :
    s.first ≤ n ∧ n ≤ s.last ∧ (n : Int) + s.distance = m := by
  unfold CaseShift.apply? at h
  split at h
  · next hin =>
      have heq := Option.some.inj h
      exact ⟨hin.1, hin.2.1, by omega⟩
  · cases h

/-- Three runs of letters have lower-case forms in ASCII, two of them with one letter each. -/
theorem lowerShifts_ascii : ∀ s ∈ lowerShifts, 128 ≤ (s.first : Int) + s.distance ∨ s.last < 128 ∨
    s.first = 0x130 ∧ s.last = 0x130 ∧ s.distance = -199 ∨
    s.first = 0x212a ∧ s.last = 0x212a ∧ s.distance = -8383 := by
  decide +kernel

/-- The dotless `ı` and the long `ſ` are the lower-case forms of no other letters. -/
theorem lowerShifts_variants : ∀ s ∈ lowerShifts, ∀ m ∈ [0x131, 0x17f],
    s.apply? ((m : Nat) - s.distance).toNat ≠ some m := by
  decide +kernel

/-- The letters of which the lower-case form is in ASCII, or the dotless `ı` or the long `ſ`. -/
theorem source_of_shift {s : CaseShift} {n m : Nat} (hs : s ∈ lowerShifts) (h : s.apply? n = some m)
    (hm : 0 < m ∧ m < 128 ∨ m ∈ [0x131, 0x17f]) :
    n < 128 ∨ n = 0x130 ∧ m = 0x69 ∨ n = 0x212a ∧ m = 0x6b := by
  rcases hm with ⟨hpos, hascii⟩ | hm
  · obtain ⟨hfirst, hlast, hsum⟩ := CaseShift.bounds h hpos
    rcases lowerShifts_ascii s hs with hbeyond | hin | ⟨h1, h2, h3⟩ | ⟨h1, h2, h3⟩ <;> omega
  · have hpos : 0 < m := by
      rcases List.mem_pair.1 hm with rfl | rfl <;> decide
    obtain ⟨-, -, hsum⟩ := CaseShift.bounds h hpos
    have hn : ((m : Nat) - s.distance).toNat = n := by omega
    exact absurd h (hn ▸ lowerShifts_variants s hs m hm)

/-- A lower-case form in ASCII, or the dotless `ı` or the long `ſ`, is that of an ASCII character, or
of the character itself, or of one of two others. -/
theorem eq_of_lowerChar {c w : Char} (h : lowerChar c = w)
    (hw : 0 < w.toNat ∧ w.toNat < 128 ∨ w.toNat ∈ [0x131, 0x17f]) :
    c = w ∨ c.toNat < 128 ∨ c = 'İ' ∧ w = 'i' ∨ c = kelvinSign ∧ w = 'k' := by
  have hpos : 0 < w.toNat := by
    rcases hw with hw | hw
    · exact hw.1
    · rcases List.mem_pair.1 hw with hw | hw <;> omega
  rw [lowerChar] at h
  split at h
  · next n hn =>
      obtain ⟨s, hs, happly⟩ := List.exists_of_findSome?_eq_some hn
      obtain rfl : w.toNat = n := h ▸ toNat_ofNat_of_pos (h ▸ hpos)
      rcases source_of_shift hs happly hw with hascii | ⟨hc, hw⟩ | ⟨hc, hw⟩
      · exact .inr (.inl hascii)
      · exact .inr (.inr (.inl ⟨Char.toNat_inj.1 hc, Char.toNat_inj.1 hw⟩))
      · exact .inr (.inr (.inr ⟨Char.toNat_inj.1 (hc.trans rfl), Char.toNat_inj.1 hw⟩))
  · exact .inl h

/-- The dotless `ı` and the long `ſ` are the lower-case forms of themselves alone. -/
theorem eq_of_lowerChar_variant {c w : Char} (h : lowerChar c = w) (hw : w.toNat ∈ [0x131, 0x17f]) :
    c = w := by
  have hbeyond : ∀ n ∈ [0x131, 0x17f], 128 ≤ n := by decide
  rcases eq_of_lowerChar h (.inr hw) with heq | hascii | ⟨-, rfl⟩ | ⟨-, rfl⟩
  · exact heq
  · -- the lower-case form of an ASCII character is in ASCII
    have hlower := lowerChar_ascii c.toNat hascii
    rw [Char.ofNat_toNat] at hlower
    have hle := hbeyond _ hw
    rw [← h, hlower.1] at hle
    exact absurd hlower.2 (Nat.not_lt.2 hle)
  · exact absurd hw (by decide)
  · exact absurd hw (by decide)

/-- The ASCII letters that are variants of another letter. -/
theorem variants_of_ascii : ∀ g ∈ letterVariants, ∀ a ∈ g, ∀ b ∈ g, a < 128 →
    b = a ∨ a = 0x69 ∧ b = 0x131 ∨ a = 0x73 ∧ b = 0x17f := by
  decide

theorem toNat_lt_of_toLower {c : Char} (h : c.toLower.toNat < 128) : c.toNat < 128 := by
  delta Char.toLower at h
  split at h
  · next hcapital =>
      have hle : c.toNat ≤ 'Z'.toNat := hcapital.2
      exact hle.trans_lt (by decide)
  · exact h

/-! ### Plain characters -/

/-- An ASCII character that is no capital. -/
def IsPlain (w : Char) : Bool := 0 < w.toNat && w.toNat < 128 && w.toLower == w

theorem isPlain_iff {w : Char} :
    IsPlain w = true ↔ 0 < w.toNat ∧ w.toNat < 128 ∧ w.toLower = w := by
  simp [IsPlain, and_assoc]

/-- The ASCII character that a character counts as where letter case does not matter. -/
def plainLetter (c : Char) : Char :=
  if c = 'ı' ∨ c = 'İ' then 'i'
  else if c = 'ſ' then 's'
  else if c = kelvinSign then 'k'
  else c.toLower

theorem plainLetter_of_ascii {c : Char} (h : c.toNat < 128) : plainLetter c = c.toLower := by
  have hne : ∀ d : Char, 128 ≤ d.toNat → c ≠ d := by
    rintro d hd rfl
    omega
  rw [plainLetter, if_neg (not_or.2 ⟨hne _ (by decide), hne _ (by decide)⟩), if_neg (hne _ (by decide)),
    if_neg (hne _ (by decide))]

theorem lowerChar_of_ascii {c : Char} (h : c.toNat < 128) : lowerChar c = c.toLower := by
  have hlower := (lowerChar_ascii c.toNat h).1
  rwa [Char.ofNat_toNat] at hlower

/-- What has a plain character as its lower-case form counts as it. -/
theorem plainLetter_of_lowerChar {c w : Char} (hw : IsPlain w = true) (h : lowerChar c = w) :
    plainLetter c = w := by
  obtain ⟨hpos, hascii, hlower⟩ := isPlain_iff.1 hw
  rcases eq_of_lowerChar h (.inl ⟨hpos, hascii⟩) with rfl | hc | ⟨rfl, rfl⟩ | ⟨rfl, rfl⟩
  · rw [plainLetter_of_ascii hascii, hlower]
  · rw [plainLetter_of_ascii hc, ← lowerChar_of_ascii hc, h]
  · rfl
  · rfl

/-- **What counts as a plain character** up to letter case. -/
theorem sameLetter_iff {w c : Char} (hw : IsPlain w = true) :
    sameLetter w c = true ↔ plainLetter c = w := by
  obtain ⟨hpos, hascii, hlower⟩ := isPlain_iff.1 hw
  have hself : lowerChar w = w := (lowerChar_of_ascii hascii).trans hlower
  constructor
  · intro h
    rw [sameLetter, hself, sameLower, Bool.or_eq_true, beq_iff_eq, List.any_eq_true] at h
    rcases h with h | ⟨g, hg, h⟩
    · exact plainLetter_of_lowerChar hw h.symm
    · rw [Bool.and_eq_true, List.contains_iff_mem, List.contains_iff_mem] at h
      rcases variants_of_ascii g hg _ h.1 _ h.2 hascii with hsame | ⟨hi, hc⟩ | ⟨hs, hc⟩
      · exact plainLetter_of_lowerChar hw (Char.toNat_inj.1 hsame)
      · obtain rfl : w = 'i' := Char.toNat_inj.1 hi
        have hc' : lowerChar c = 'ı' := Char.toNat_inj.1 hc
        obtain rfl := eq_of_lowerChar_variant hc' (by decide)
        rfl
      · obtain rfl : w = 's' := Char.toNat_inj.1 hs
        have hc' : lowerChar c = 'ſ' := Char.toNat_inj.1 hc
        obtain rfl := eq_of_lowerChar_variant hc' (by decide)
        rfl
  · -- the letters beyond ASCII one by one, then those in it
    intro h
    rw [plainLetter] at h
    split at h
    · next hi =>
        subst h
        rcases hi with rfl | rfl <;> decide
    · split at h
      · next hs =>
          subst h hs
          decide
      · split at h
        · next hk =>
            subst h hk
            decide
        · have hc : c.toNat < 128 := toNat_lt_of_toLower (h ▸ hascii)
          rw [sameLetter, hself, lowerChar_of_ascii hc, h, sameLower]
          simp

/-! ### Blanks -/

theorem toNat_of_isBlank {c : Char} (h : isBlank c = true) : c.toNat ≤ 0x20 ∨ 0x80 ≤ c.toNat := by
  rw [isBlank, List.any_eq_true] at h
  obtain ⟨r, hr, h⟩ := h
  have hranges : ∀ r ∈ blankRanges, r.2 ≤ 0x20 ∨ 0x80 ≤ r.1 := by decide
  have := hranges r hr
  simp only [Bool.and_eq_true, decide_eq_true_eq] at h
  omega

theorem toUpper_of_isBlank {c : Char} (h : isBlank c = true) : c.toUpper = c := by
  delta Char.toUpper
  split
  · next hsmall =>
      have hfirst : 97 ≤ c.toNat := hsmall.1
      have hlast : c.toNat ≤ 122 := hsmall.2
      have := toNat_of_isBlank h
      omega
  · rfl

theorem toLower_of_isBlank {c : Char} (h : isBlank c = true) : c.toLower = c := by
  delta Char.toLower
  split
  · next hcapital =>
      have hfirst : 65 ≤ c.toNat := hcapital.1
      have hlast : c.toNat ≤ 90 := hcapital.2
      have := toNat_of_isBlank h
      omega
  · rfl

/-- A blank counts as no other character. -/
theorem plainLetter_of_isBlank {c : Char} (h : isBlank c = true) : plainLetter c = c := by
  have hne : ∀ d : Char, isBlank d = false → c ≠ d := by
    rintro d hd rfl
    rw [h] at hd
    cases hd
  rw [plainLetter, if_neg (not_or.2 ⟨hne _ (by decide), hne _ (by decide)⟩), if_neg (hne _ (by decide)),
    if_neg (hne _ (by decide)), toLower_of_isBlank h]

/-! ### Words -/

/-- A text fits a word up to letter case. -/
def Alike (word cs : List Char) : Prop := List.Forall₂ (fun w c => sameLetter w c = true) word cs

/-- **What fits a word of plain characters** up to letter case. -/
theorem alike_iff {word cs : List Char} (h : word.all IsPlain = true) :
    Alike word cs ↔ cs.map plainLetter = word := by
  induction word generalizing cs with
  | nil => rw [Alike, List.forall₂_nil_left_iff, List.map_eq_nil_iff]
  | cons w ws ih =>
      rw [List.all_cons, Bool.and_eq_true] at h
      cases cs with
      | nil => simp [Alike]
      | cons c cs =>
          have hrest : Alike ws cs ↔ cs.map plainLetter = ws := ih h.2
          rw [Alike, List.forall₂_cons, sameLetter_iff h.1, List.map_cons, List.cons.injEq, ← hrest]
          rfl

/-- What fits a word begins with no character of a class that the word does not begin with. -/
theorem Alike.clearOf {p : Char → Bool} {w : Char} {ws cs : List Char} (h : Alike (w :: ws) cs)
    (hw : IsPlain w = true) (hself : ∀ c, p c = true → plainLetter c = c) (hp : p w = false)
    (tail : List Char) : ClearOf p (cs ++ tail) := by
  cases h with
  | @cons _ c _ _ hsame _ =>
      refine clearOf_cons.2 ?_
      by_contra hc
      have hp' : p c = true := by simpa using hc
      rw [← (sameLetter_iff hw).1 hsame, hself c hp', hp'] at hp
      cases hp

theorem plainLetter_of_isQuote {c : Char} (h : isQuote c = true) : plainLetter c = c := by
  rw [isQuote, Bool.or_eq_true, beq_iff_eq, beq_iff_eq] at h
  rcases h with rfl | rfl <;> decide

/-- What fits a word without blanks has none. -/
theorem Alike.not_blank {word cs : List Char} (h : Alike word cs) (hplain : word.all IsPlain = true)
    (hword : ∀ w ∈ word, isBlank w = false) : ∀ c ∈ cs, isBlank c = false := by
  intro c hc
  by_contra hne
  have hblank : isBlank c = true := by simpa using hne
  have hin : plainLetter c ∈ word := (alike_iff hplain).1 h ▸ List.mem_map_of_mem hc
  rw [plainLetter_of_isBlank hblank] at hin
  exact hne (hword c hin)

/-- Of words of which none is the beginning of another, at most one fits the start of a text. -/
theorem Alike.unique {w w' cs cs' rest rest' : List Char} (h : Alike w cs) (h' : Alike w' cs')
    (hplain : w.all IsPlain = true) (hplain' : w'.all IsPlain = true) (hapart : w <+: w' → w = w')
    (hapart' : w' <+: w → w' = w) (heq : cs ++ rest = cs' ++ rest') : w = w' ∧ cs = cs' := by
  have hprefix : w <+: (cs ++ rest).map plainLetter := by
    rw [List.map_append, (alike_iff hplain).1 h]
    exact List.prefix_append _ _
  have hprefix' : w' <+: (cs ++ rest).map plainLetter := by
    rw [heq, List.map_append, (alike_iff hplain').1 h']
    exact List.prefix_append _ _
  have hsame : w = w' := by
    rcases List.prefix_or_prefix_of_prefix hprefix hprefix' with hle | hle
    · exact hapart hle
    · exact (hapart' hle).symm
  subst hsame
  exact ⟨rfl, List.append_inj_left heq (h.length_eq.symm.trans h'.length_eq)⟩

/-- A word at the start of a text, in any letter case. -/
theorem afterCaseless?_eq_some_iff {word cs written rest : List Char} :
    afterCaseless? word cs = some (written, rest) ↔ Alike word written ∧ cs = written ++ rest := by
  constructor
  · intro h
    obtain ⟨happend, hall⟩ := afterCaseless?_append h
    exact ⟨hall, happend.symm⟩
  · rintro ⟨hall, rfl⟩
    unfold Alike at hall
    induction hall with
    | nil => rfl
    | cons hsame _ ih => rw [List.cons_append, afterCaseless?, if_pos hsame, ih]; rfl

end EventLayer.Text
