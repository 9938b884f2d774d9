import Mathlib.Data.Prod.Lex
import Mathlib.Order.OrderDual
import WinCommander.Library.History
import WinCommander.Library.Keyed
import WinCommander.Library.TextBytes

/-!
# Masked matches

The spans that a scan found are cut out of the text.  Spans that overlap are one region, of which
nothing is shown, but for the last digits where all of its spans are payment cards.
-/

namespace ClipMasking

open History
open Json (size)
open TextBytes (isCharBoundary)

section Definitions

inductive DetectorCategory where
  | paymentCard
  | bankAccount
  | nationalId
  | taxId
  | health
  | contactInfo
  | cloudKey
  | token
  | privateKey
  | connectionString
  | crypto
  | custom
  deriving DecidableEq

structure LocalSpan where
  start : ℕ
  stop : ℕ
  ruleId : String
  category : DetectorCategory
  deriving DecidableEq

/-- Spans that overlap. -/
structure Region where
  start : ℕ
  stop : ℕ
  category : DetectorCategory

/-- Spans by their start, and by their end in reverse. -/
def LocalSpan.key (span : LocalSpan) : ℕ ×ₗ ℕᵒᵈ := toLex (span.start, OrderDual.toDual span.stop)

def Region.ofSpan (span : LocalSpan) : Region := ⟨span.start, span.stop, span.category⟩

/-- An overlapping secret must never retain a card's trailing digits. -/
def Region.join (region : Region) (span : LocalSpan) : Region where
  start := region.start
  stop := max region.stop span.stop
  category := if span.category ≠ region.category then .custom else region.category

/-- The loop over the spans, with the last region at hand. -/
def mergeFrom : Region → List LocalSpan → List Region
  | last, [] => [last]
  | last, span :: spans =>
    if span.start < last.stop then mergeFrom (last.join span) spans
    else last :: mergeFrom (Region.ofSpan span) spans

def merge : List LocalSpan → List Region
  | [] => []
  | span :: spans => mergeFrom (Region.ofSpan span) spans

def cardMark : List Char := "•••• •••• •••• ".toList

def secretMark : List Char := "[secret removed]".toList

def lastFour (text : List Char) : List Char :=
  let digits := text.filter Char.isDigit
  digits.drop (digits.length - 4)

/-- The loop over the regions, from the byte `cursor` on; nothing where a slice panics. -/
def render (text : List Char) : ℕ → List Region → Option (List Char)
  | cursor, [] => TextBytes.slice text cursor (size text)
  | cursor, region :: regions => do
    let before ← TextBytes.slice text cursor region.start
    let mask ← if region.category = .paymentCard then
        (TextBytes.slice text region.start region.stop).map fun hidden => cardMark ++ lastFour hidden
      else some secretMark
    let rest ← render text region.stop regions
    some (before ++ mask ++ rest)

def selected (text : List Char) (spans : List LocalSpan) (keep : LocalSpan → Bool) :
    List LocalSpan :=
  spans.filter fun span => keep span && (TextBytes.slice text span.start span.stop).isSome

def maskSelected (text : List Char) (spans : List LocalSpan) (keep : LocalSpan → Bool) :
    Option (List Char) :=
  render text 0 (merge (Keyed.sortOn LocalSpan.key (selected text spans keep)))

def maskMatches (text : List Char) (spans : List LocalSpan) : Option (List Char) :=
  maskSelected text spans fun _ => true

def maskMatchesForRules (text : List Char) (spans : List LocalSpan) (ruleIds : List String) :
    Option (List Char) :=
  maskSelected text spans fun span => ruleIds.contains span.ruleId

end Definitions

section Blocks

theorem key_le_iff {s t : LocalSpan} :
    s.key ≤ t.key ↔ s.start < t.start ∨ s.start = t.start ∧ t.stop ≤ s.stop := by
  rw [LocalSpan.key, LocalSpan.key, Prod.Lex.toLex_le_toLex, OrderDual.toDual_le_toDual]

/-- A region and the spans it is made of. -/
structure Region.Holds (region : Region) (held : List LocalSpan) : Prop where
  inside : ∀ s ∈ held, region.start ≤ s.start ∧ s.start ≤ s.stop ∧ s.stop ≤ region.stop ∧
    (s.start < region.stop ∨ s.start = region.start)
  first : ∃ s ∈ held, s.start = region.start
  last : ∃ s ∈ held, s.stop = region.stop
  covered : ∀ i, region.start ≤ i → i < region.stop → ∃ s ∈ held, s.start ≤ i ∧ i < s.stop
  cards : region.category = .paymentCard ↔ ∀ s ∈ held, s.category = .paymentCard

theorem Region.holds_ofSpan {span : LocalSpan} (h : span.start ≤ span.stop) :
    (Region.ofSpan span).Holds [span] where
  inside := by simp [Region.ofSpan, h]
  first := by simp [Region.ofSpan]
  last := by simp [Region.ofSpan]
  covered := fun i hi hstop => ⟨span, List.mem_singleton_self span, hi, hstop⟩
  cards := by simp [Region.ofSpan]

theorem Region.Holds.join {region : Region} {held : List LocalSpan} (h : region.Holds held)
    {span : LocalSpan} (hstart : region.start ≤ span.start) (hspan : span.start ≤ span.stop)
    (hover : span.start < region.stop) : (region.join span).Holds (held ++ [span]) where
  inside := by
    intro s hs
    simp only [Region.join]
    rcases List.mem_append.mp hs with hs | hs
    · have hin := h.inside s hs
      omega
    · rw [List.mem_singleton.mp hs]
      omega
  first := by
    obtain ⟨s, hs, hfirst⟩ := h.first
    exact ⟨s, List.mem_append_left _ hs, hfirst⟩
  last := by
    simp only [Region.join]
    by_cases hlonger : region.stop ≤ span.stop
    · exact ⟨span, by simp, (Nat.max_eq_right hlonger).symm⟩
    · obtain ⟨s, hs, hlast⟩ := h.last
      exact ⟨s, List.mem_append_left _ hs, by omega⟩
  covered := by
    intro i hi hstop
    simp only [Region.join] at hi hstop
    by_cases hin : i < region.stop
    · obtain ⟨s, hs, hcover⟩ := h.covered i hi hin
      exact ⟨s, List.mem_append_left _ hs, hcover⟩
    · exact ⟨span, by simp, by omega, by omega⟩
  cards := by
    simp only [Region.join, List.forall_mem_append, List.forall_mem_singleton, ← h.cards]
    by_cases hsame : span.category = region.category
    · simp [hsame]
    · rw [if_pos hsame]
      refine iff_of_false (by simp) ?_
      rintro ⟨hregion, hcard⟩
      exact hsame (hcard.trans hregion.symm)

/-- What holds of a block and a later one. -/
def Apart (b b' : Region × List LocalSpan) : Prop :=
  b.1.stop ≤ b'.1.start ∧ ∀ s ∈ b.2, ∀ s' ∈ b'.2, s.key ≤ s'.key

/-- Sorted spans cut into blocks, each of which makes one region. -/
structure Cuts (spans : List LocalSpan) (blocks : List (Region × List LocalSpan)) : Prop where
  flatten : (blocks.map Prod.snd).flatten = spans
  holds : ∀ b ∈ blocks, b.1.Holds b.2
  apart : blocks.Pairwise Apart

theorem mergeFrom_blocks {last : Region} {held spans : List LocalSpan} (h : last.Holds held)
    (hsorted : (held ++ spans).Pairwise fun s t => s.key ≤ t.key)
    (hspans : ∀ s ∈ spans, s.start ≤ s.stop) :
    ∃ blocks, mergeFrom last spans = blocks.map Prod.fst ∧ Cuts (held ++ spans) blocks := by
  induction spans generalizing last held with
  | nil => exact ⟨[(last, held)], rfl, by simp, by simpa using h, List.pairwise_singleton _ _⟩
  | cons span spans ih =>
    have ⟨hspan, hrest⟩ := List.forall_mem_cons.mp hspans
    have ⟨_, hsortedRest, hbefore⟩ := List.pairwise_append.mp hsorted
    have hstart : last.start ≤ span.start := by
      obtain ⟨s, hs, hfirst⟩ := h.first
      have hle := key_le_iff.mp (hbefore s hs span List.mem_cons_self)
      omega
    rw [mergeFrom]
    by_cases hover : span.start < last.stop
    · rw [if_pos hover]
      have happend : held ++ span :: spans = (held ++ [span]) ++ spans := by simp
      rw [happend] at hsorted ⊢
      exact ih (h.join hstart hspan hover) hsorted hrest
    · rw [if_neg hover]
      obtain ⟨blocks, hmerge, hcuts⟩ := ih (Region.holds_ofSpan hspan) hsortedRest hrest
      refine ⟨(last, held) :: blocks, by rw [hmerge]; rfl, ?_, ?_, ?_⟩
      · rw [List.map_cons, List.flatten_cons, hcuts.flatten]
        rfl
      · exact List.forall_mem_cons.mpr ⟨h, hcuts.holds⟩
      · refine List.pairwise_cons.mpr ⟨?_, hcuts.apart⟩
        intro b hb
        have hmem : ∀ s ∈ b.2, s ∈ span :: spans := by
          intro s hs
          have hflat : s ∈ (blocks.map Prod.snd).flatten :=
            List.mem_flatten.mpr ⟨b.2, List.mem_map_of_mem hb, hs⟩
          rwa [hcuts.flatten] at hflat
        refine ⟨?_, fun s hs s' hs' => hbefore s hs s' (hmem s' hs')⟩
        obtain ⟨s, hs, hfirst⟩ := (hcuts.holds b hb).first
        have hle : span.start ≤ s.start := by
          rcases List.mem_cons.mp (hmem s hs) with rfl | htail
          · exact Nat.le_refl _
          · have hkey := key_le_iff.mp ((List.pairwise_cons.mp hsortedRest).1 s htail)
            omega
        show last.stop ≤ b.1.start
        omega

theorem merge_blocks {spans : List LocalSpan} (hsorted : spans.Pairwise fun s t => s.key ≤ t.key)
    (hspans : ∀ s ∈ spans, s.start ≤ s.stop) :
    ∃ blocks, merge spans = blocks.map Prod.fst ∧ Cuts spans blocks := by
  cases spans with
  | nil => exact ⟨[], rfl, rfl, by simp, List.Pairwise.nil⟩
  | cons span spans =>
    have ⟨hspan, hrest⟩ := List.forall_mem_cons.mp hspans
    exact mergeFrom_blocks (Region.holds_ofSpan hspan) hsorted hrest

end Blocks

section Order

variable {spans : List LocalSpan} {blocks : List (Region × List LocalSpan)}

theorem Cuts.mem_held (h : Cuts spans blocks) {b : Region × List LocalSpan} (hb : b ∈ blocks)
    {s : LocalSpan} (hs : s ∈ b.2) : s ∈ spans := by
  rw [← h.flatten]
  exact List.mem_flatten.mpr ⟨b.2, List.mem_map_of_mem hb, hs⟩

theorem Cuts.exists_held (h : Cuts spans blocks) {s : LocalSpan} (hs : s ∈ spans) :
    ∃ b ∈ blocks, s ∈ b.2 := by
  rw [← h.flatten] at hs
  obtain ⟨held, hheld, hs⟩ := List.mem_flatten.mp hs
  obtain ⟨b, hb, rfl⟩ := List.mem_map.mp hheld
  exact ⟨b, hb, hs⟩

/-- Two blocks are one or one of them comes after the other. -/
theorem Cuts.eq_or_apart (h : Cuts spans blocks) {b b' : Region × List LocalSpan} (hb : b ∈ blocks)
    (hb' : b' ∈ blocks) : b = b' ∨ Apart b b' ∨ Apart b' b := by
  have hpair : blocks.Pairwise fun b b' => Apart b b' ∨ Apart b' b :=
    h.apart.imp fun hapart => Or.inl hapart
  have hsymm : Std.Symm fun b b' : Region × List LocalSpan => Apart b b' ∨ Apart b' b :=
    ⟨fun _ _ hor => Or.symm hor⟩
  by_cases heq : b = b'
  · exact Or.inl heq
  · exact Or.inr (hpair.forall hb hb' heq)

/-- Two empty spans at one place are payment cards or not, both. -/
def NoClash (spans : List LocalSpan) : Prop :=
  ∀ s ∈ spans, ∀ t ∈ spans, s.stop = s.start → t.start = s.start → t.stop = s.start →
    (s.category = .paymentCard ↔ t.category = .paymentCard)

/-- A span that starts in a region, or where it starts. -/
def Region.StartsIn (region : Region) (span : LocalSpan) : Prop :=
  region.start ≤ span.start ∧ (span.start < region.stop ∨ span.start = region.start)

/-- A later region that starts where an earlier one does is empty. -/
theorem Cuts.empty_of_start_eq (h : Cuts spans blocks) {b b' : Region × List LocalSpan}
    (hb : b ∈ blocks) (hb' : b' ∈ blocks) (hapart : Apart b b') (hstart : b.1.start = b'.1.start) :
    b'.1.stop = b'.1.start := by
  obtain ⟨s, hs, hfirst⟩ := (h.holds b hb).first
  have hin := (h.holds b hb).inside s hs
  have hle := hapart.1
  by_contra hne
  obtain ⟨s', hs', _⟩ := (h.holds b' hb').first
  have hin' := (h.holds b' hb').inside s' hs'
  obtain ⟨t, ht, hcover⟩ := (h.holds b' hb').covered b'.1.start (Nat.le_refl _) (by omega)
  have hint := (h.holds b' hb').inside t ht
  have hkey := key_le_iff.mp (hapart.2 s hs t ht)
  omega

/-- Whether a region is one of payment cards is seen from the spans that start in it. -/
theorem Cuts.cards_iff (h : Cuts spans blocks) (hclash : NoClash spans)
    {b : Region × List LocalSpan} (hb : b ∈ blocks) :
    b.1.category = .paymentCard ↔
      ∀ s ∈ spans, b.1.StartsIn s → s.category = .paymentCard := by
  have hheld := h.holds b hb
  constructor
  · intro hcard s hs hstarts
    obtain ⟨b', hb', hs'⟩ := h.exists_held hs
    have hin := (h.holds b' hb').inside s hs'
    obtain ⟨t, ht, hfirst⟩ := hheld.first
    have hint := hheld.inside t ht
    have htcard := hheld.cards.mp hcard t ht
    have hempty : b.1.stop = b.1.start → s.start = b.1.start → s.stop = s.start →
        s.category = .paymentCard := by
      intro hstop hstart hspan
      have hiff := hclash t (h.mem_held hb ht) s hs (by omega) (by omega) (by omega)
      exact hiff.mp htcard
    rcases h.eq_or_apart hb hb' with rfl | hapart | hapart
    · exact hheld.cards.mp hcard s hs'
    · have hle := hapart.1
      have hstarts' := hstarts.2
      have hstop := h.empty_of_start_eq hb hb' hapart (by omega)
      exact hempty (by omega) (by omega) (by omega)
    · have hle := hapart.1
      have hstart := hstarts.1
      have hstop := h.empty_of_start_eq hb' hb hapart (by omega)
      exact hempty hstop (by omega) (by omega)
  · intro hall
    apply hheld.cards.mpr
    intro s hs
    have hin := hheld.inside s hs
    exact hall s (h.mem_held hb hs) ⟨hin.1, hin.2.2.2⟩

/-- Nothing but the region's own spans meets a region. -/
theorem Cuts.mem_held_of_meets (h : Cuts spans blocks) {b : Region × List LocalSpan}
    (hb : b ∈ blocks) {s : LocalSpan} (hs : s ∈ spans) {i : ℕ} (hi : b.1.start ≤ i)
    (hstop : i < b.1.stop) (hs₁ : s.start ≤ i) (hs₂ : i < s.stop) : s ∈ b.2 := by
  obtain ⟨b', hb', hs'⟩ := h.exists_held hs
  have hin := (h.holds b' hb').inside s hs'
  rcases h.eq_or_apart hb hb' with rfl | hapart | hapart
  · exact hs'
  · have hle := hapart.1
    omega
  · have hle := hapart.1
    omega

end Order

section Pieces

/-- A piece of the text: one that is shown as it is, or a region that is not. -/
inductive Piece where
  | kept (text : List Char)
  | hidden (text : List Char) (cards : Bool)

def Piece.original : Piece → List Char
  | .kept text => text
  | .hidden text _ => text

def Piece.shown : Piece → List Char
  | .kept text => text
  | .hidden text true => cardMark ++ lastFour text
  | .hidden _ false => secretMark

/-- A byte of the text is in a span. -/
def LocalSpan.Has (span : LocalSpan) (i : ℕ) : Prop := span.start ≤ i ∧ i < span.stop

/-- No span has a byte of a piece that is kept, and one has every byte of a piece that is not; where
its digits are shown, they are payment cards all. -/
def Piece.Right (chosen : List LocalSpan) (start : ℕ) : Piece → Prop
  | .kept text => ∀ s ∈ chosen, ∀ i, start ≤ i → i < start + size text → ¬ s.Has i
  | .hidden text cards => (∀ i, start ≤ i → i < start + size text → ∃ s ∈ chosen, s.Has i) ∧
      (cards = true → ∀ s ∈ chosen, ∀ i, start ≤ i → i < start + size text → s.Has i →
        s.category = .paymentCard)

/-- Regions in their order, from `cursor` on, each between two characters of the text. -/
def Laid (text : List Char) : ℕ → List Region → Prop
  | _, [] => True
  | cursor, region :: regions => cursor ≤ region.start ∧ region.start ≤ region.stop ∧
      isCharBoundary text region.start = true ∧ isCharBoundary text region.stop = true ∧
      Laid text region.stop regions

/-- The pieces that the regions cut the text into, from `cursor` on. -/
def Spells : ℕ → List Region → List Piece → Prop
  | _, [], pieces => ∃ text, pieces = [.kept text]
  | cursor, region :: regions, pieces => ∃ before text rest,
      pieces = .kept before :: .hidden text (region.category = .paymentCard) :: rest ∧
      cursor + size before = region.start ∧ region.start + size text = region.stop ∧
      Spells region.stop regions rest

variable {text : List Char}

theorem Laid.le_start {cursor : ℕ} {regions : List Region} (h : Laid text cursor regions) :
    ∀ region ∈ regions, cursor ≤ region.start := by
  induction regions generalizing cursor with
  | nil => simp
  | cons region regions ih =>
    obtain ⟨hstart, hstop, -, -, hrest⟩ := h
    refine List.forall_mem_cons.mpr ⟨hstart, ?_⟩
    intro later hlater
    exact hstart.trans (hstop.trans (ih hrest later hlater))

/-- No slice panics, and what comes out is the text with its regions masked. -/
theorem render_spells {regions : List Region} {before rest : List Char}
    (htext : text = before ++ rest) (h : Laid text (size before) regions) :
    ∃ pieces : List Piece, render text (size before) regions = some (pieces.flatMap Piece.shown) ∧
      pieces.flatMap Piece.original = rest ∧ Spells (size before) regions pieces := by
  induction regions generalizing before rest with
  | nil =>
    refine ⟨[.kept rest], ?_, by simp [Piece.original], rest, rfl⟩
    have hslice := TextBytes.slice_append before rest []
    rw [List.append_nil, ← Json.size_append, ← htext] at hslice
    rw [render, hslice]
    simp [Piece.shown]
  | cons region regions ih =>
    obtain ⟨hstart, hstop, hboundary, hboundary', hrest⟩ := h
    rw [htext] at hboundary
    obtain ⟨kept, after, hafter, hkept⟩ := TextBytes.exists_of_isCharBoundary hboundary hstart
    have htext' : text = (before ++ kept) ++ after := by rw [htext, hafter, List.append_assoc]
    have hsize : size (before ++ kept) = region.start := by rw [Json.size_append, hkept]
    rw [htext'] at hboundary'
    obtain ⟨hidden, rest', hrest', hhidden⟩ :=
      TextBytes.exists_of_isCharBoundary hboundary' (by rw [hsize]; exact hstop)
    have htext'' : text = (before ++ kept ++ hidden) ++ rest' := by
      rw [htext', hrest', List.append_assoc, List.append_assoc, List.append_assoc]
    have hsize' : size (before ++ kept ++ hidden) = region.stop := by
      rw [Json.size_append, hhidden]
    obtain ⟨pieces, hrender, horiginal, hspells⟩ := ih htext'' (by rw [hsize']; exact hrest)
    have hfirst : TextBytes.slice text (size before) region.start = some kept := by
      rw [htext, hafter, ← hkept]
      exact TextBytes.slice_append before kept after
    have hsecond : TextBytes.slice text region.start region.stop = some hidden := by
      rw [htext', hrest', ← hsize, ← hhidden]
      exact TextBytes.slice_append (before ++ kept) hidden rest'
    rw [hsize'] at hrender hspells
    refine ⟨.kept kept :: .hidden hidden (region.category = .paymentCard) :: pieces, ?_, ?_, ?_⟩
    · rw [render, hfirst, hsecond, hrender]
      by_cases hcard : region.category = .paymentCard <;> simp [hcard, Piece.shown]
    · simp [Piece.original, horiginal, hafter, hrest']
    · rw [hsize] at hhidden
      exact ⟨kept, hidden, pieces, rfl, hkept, hhidden, hspells⟩

/-- What the regions of some spans have. -/
def Region.Right (chosen : List LocalSpan) (region : Region) : Prop :=
  (∀ i, region.start ≤ i → i < region.stop → ∃ s ∈ chosen, s.Has i) ∧
    (region.category = .paymentCard → ∀ s ∈ chosen, ∀ i, region.start ≤ i → i < region.stop →
      s.Has i → s.category = .paymentCard)

theorem Spells.right {chosen : List LocalSpan} {cursor : ℕ} {regions : List Region}
    {pieces : List Piece} (h : Spells cursor regions pieces) (hlaid : Laid text cursor regions)
    (hright : ∀ region ∈ regions, region.Right chosen)
    (hcover : ∀ s ∈ chosen, ∀ i, cursor ≤ i → s.Has i →
      ∃ region ∈ regions, region.start ≤ i ∧ i < region.stop)
    {before : List Piece} {piece : Piece} {after : List Piece}
    (hpieces : pieces = before ++ piece :: after) :
    piece.Right chosen (cursor + size (before.flatMap Piece.original)) := by
  induction regions generalizing cursor pieces before with
  | nil =>
    obtain ⟨kept, rfl⟩ := h
    cases before with
    | nil =>
      obtain ⟨rfl, -⟩ := List.cons.inj hpieces
      intro s hs i hi _ hhas
      obtain ⟨region, hregion, -⟩ := hcover s hs i (by simpa using hi) hhas
      cases hregion
    | cons first before => simp at hpieces
  | cons region regions ih =>
    obtain ⟨kept, hidden, rest, rfl, hkept, hhidden, hrest⟩ := h
    have ⟨hregion, hregions⟩ := List.forall_mem_cons.mp hright
    have hstarts := hlaid.le_start
    obtain ⟨hstart, hstop, -, -, hlaid'⟩ := hlaid
    cases before with
    | nil =>
      obtain ⟨rfl, -⟩ := List.cons.inj hpieces
      intro s hs i hi hlt hhas
      simp only [List.flatMap_nil, Json.size_nil, Nat.add_zero] at hi hlt
      obtain ⟨other, hother, hin⟩ := hcover s hs i hi hhas
      rcases List.mem_cons.mp hother with rfl | hother
      · omega
      · have hlater := hlaid'.le_start other hother
        omega
    | cons first before =>
      have ⟨hfirst, htail⟩ := List.cons.inj hpieces
      subst hfirst
      cases before with
      | nil =>
        obtain ⟨rfl, -⟩ := List.cons.inj htail
        have hplace : cursor + size ([Piece.kept kept].flatMap Piece.original) = region.start := by
          simpa [Piece.original] using hkept
        rw [hplace]
        have hend : region.start + size hidden = region.stop := hhidden
        refine ⟨fun i hi hlt => hregion.1 i hi (hend ▸ hlt), ?_⟩
        intro hcard s hs i hi hlt
        exact hregion.2 (of_decide_eq_true hcard) s hs i hi (hend ▸ hlt)
      | cons second before =>
        have ⟨hsecond, htail'⟩ := List.cons.inj htail
        subst hsecond
        have hcover' : ∀ s ∈ chosen, ∀ i, region.stop ≤ i → s.Has i →
            ∃ region ∈ regions, region.start ≤ i ∧ i < region.stop := by
          intro s hs i hi hhas
          obtain ⟨other, hother, hin⟩ := hcover s hs i (by omega) hhas
          rcases List.mem_cons.mp hother with rfl | hother
          · omega
          · exact ⟨other, hother, hin⟩
        have hnext := ih hrest hlaid' hregions hcover' htail'
        have hplace : cursor + size ((Piece.kept kept ::
            Piece.hidden hidden (region.category = .paymentCard) :: before).flatMap Piece.original) =
              region.stop + size (before.flatMap Piece.original) := by
          simp only [List.flatMap_cons, Piece.original, Json.size_append]
          omega
        rw [hplace]
        exact hnext

/-- Regions of blocks are in their order. -/
theorem laid_of_apart {cursor : ℕ} {blocks : List (Region × List LocalSpan)}
    (hapart : blocks.Pairwise Apart) (hfrom : ∀ b ∈ blocks, cursor ≤ b.1.start)
    (hvalid : ∀ b ∈ blocks, b.1.start ≤ b.1.stop ∧ isCharBoundary text b.1.start = true ∧
      isCharBoundary text b.1.stop = true) : Laid text cursor (blocks.map Prod.fst) := by
  induction blocks generalizing cursor with
  | nil => trivial
  | cons b blocks ih =>
    have ⟨hfirst, hrest⟩ := List.pairwise_cons.mp hapart
    have ⟨hb, hblocks⟩ := List.forall_mem_cons.mp hvalid
    have hlaid := ih hrest (fun b' hb' => (hfirst b' hb').1) hblocks
    exact ⟨hfrom b List.mem_cons_self, hb.1, hb.2.1, hb.2.2, hlaid⟩

end Pieces

section Permuted

/-- Two regions that look the same. -/
def Region.Same (r r' : Region) : Prop :=
  r.start = r'.start ∧ r.stop = r'.stop ∧ (r.category = .paymentCard ↔ r'.category = .paymentCard)

theorem render_congr {text : List Char} {regions regions' : List Region}
    (h : List.Forall₂ Region.Same regions regions') (cursor : ℕ) :
    render text cursor regions = render text cursor regions' := by
  induction h generalizing cursor with
  | nil => rfl
  | cons hsame _ ih =>
    obtain ⟨hstart, hstop, hcard⟩ := hsame
    rw [render, render, hstart, hstop, ih]
    simp only [hcard]

/-- Two regions at one place. -/
def Region.SamePlace (r r' : Region) : Prop := r.start = r'.start ∧ r.stop = r'.stop

theorem mergeFrom_samePlace {spans spans' : List LocalSpan}
    (h : spans.map LocalSpan.key = spans'.map LocalSpan.key) {last last' : Region}
    (hlast : last.SamePlace last') :
    List.Forall₂ Region.SamePlace (mergeFrom last spans) (mergeFrom last' spans') := by
  induction spans generalizing spans' last last' with
  | nil =>
    rw [List.map_nil, eq_comm, List.map_eq_nil_iff] at h
    rw [h]
    exact .cons hlast .nil
  | cons span spans ih =>
    cases spans' with
    | nil => simp at h
    | cons span' spans' =>
      have ⟨hkey, hrest⟩ := List.cons.inj h
      have ⟨hstart, hstop⟩ := Prod.mk.inj (toLex.injective hkey)
      have hstop' : span.stop = span'.stop := OrderDual.toDual.injective hstop
      obtain ⟨hfirst, hend⟩ := hlast
      rw [mergeFrom, mergeFrom, hstart, hend]
      split
      · exact ih hrest ⟨hfirst, by simp [Region.join, hend, hstop']⟩
      · exact .cons ⟨hfirst, hend⟩ (ih hrest ⟨hstart, hstop'⟩)

theorem merge_samePlace {spans spans' : List LocalSpan}
    (h : spans.map LocalSpan.key = spans'.map LocalSpan.key) :
    List.Forall₂ Region.SamePlace (merge spans) (merge spans') := by
  cases spans with
  | nil =>
    rw [List.map_nil, eq_comm, List.map_eq_nil_iff] at h
    rw [h]
    exact .nil
  | cons span spans =>
    cases spans' with
    | nil => simp at h
    | cons span' spans' =>
      have ⟨hkey, hrest⟩ := List.cons.inj h
      have ⟨hstart, hstop⟩ := Prod.mk.inj (toLex.injective hkey)
      exact mergeFrom_samePlace hrest ⟨hstart, OrderDual.toDual.injective hstop⟩

theorem forall₂_of_mem {α : Type*} {R S : α → α → Prop} {xs ys : List α}
    (h : List.Forall₂ R xs ys) (himp : ∀ x ∈ xs, ∀ y ∈ ys, R x y → S x y) :
    List.Forall₂ S xs ys := by
  induction h with
  | nil => exact .nil
  | cons hxy _ ih =>
    refine .cons (himp _ List.mem_cons_self _ List.mem_cons_self hxy) (ih ?_)
    intro x hx y hy
    exact himp x (List.mem_cons_of_mem _ hx) y (List.mem_cons_of_mem _ hy)

theorem map_key_sortOn {spans spans' : List LocalSpan} (h : spans'.Perm spans) :
    (Keyed.sortOn LocalSpan.key spans').map LocalSpan.key =
      (Keyed.sortOn LocalSpan.key spans).map LocalSpan.key := by
  have hsorted : ∀ spans : List LocalSpan,
      ((Keyed.sortOn LocalSpan.key spans).map LocalSpan.key).Pairwise (· ≤ ·) :=
    fun spans => List.pairwise_map.mpr (Keyed.sortOn_pairwise LocalSpan.key spans)
  have hperm : (Keyed.sortOn LocalSpan.key spans').Perm (Keyed.sortOn LocalSpan.key spans) :=
    (Keyed.sortOn_perm _ spans').trans (h.trans (Keyed.sortOn_perm _ spans).symm)
  exact List.Perm.eq_of_pairwise (fun _ _ _ _ hle hge => le_antisymm hle hge) (hsorted spans')
    (hsorted spans) (hperm.map LocalSpan.key)

theorem NoClash.of_mem {spans spans' : List LocalSpan} (h : NoClash spans)
    (hmem : ∀ s ∈ spans', s ∈ spans) : NoClash spans' :=
  fun s hs t ht => h s (hmem s hs) t (hmem t ht)

/-- The regions do not show the order in which the spans came. -/
theorem merge_same {spans spans' : List LocalSpan} (hperm : spans'.Perm spans)
    (hclash : NoClash spans) (hvalid : ∀ s ∈ spans, s.start ≤ s.stop) :
    List.Forall₂ Region.Same (merge (Keyed.sortOn LocalSpan.key spans'))
      (merge (Keyed.sortOn LocalSpan.key spans)) := by
  have hmem : ∀ s, s ∈ Keyed.sortOn LocalSpan.key spans' ↔ s ∈ Keyed.sortOn LocalSpan.key spans := by
    intro s
    rw [Keyed.mem_sortOn, Keyed.mem_sortOn, hperm.mem_iff]
  have hvalidSorted : ∀ s ∈ Keyed.sortOn LocalSpan.key spans, s.start ≤ s.stop :=
    fun s hs => hvalid s (Keyed.mem_sortOn.mp hs)
  have hclashSorted : NoClash (Keyed.sortOn LocalSpan.key spans) :=
    hclash.of_mem fun s hs => Keyed.mem_sortOn.mp hs
  obtain ⟨blocks', hmerge', hcuts'⟩ := merge_blocks (Keyed.sortOn_pairwise LocalSpan.key spans')
    fun s hs => hvalidSorted s ((hmem s).mp hs)
  obtain ⟨blocks, hmerge, hcuts⟩ :=
    merge_blocks (Keyed.sortOn_pairwise LocalSpan.key spans) hvalidSorted
  have hplaces := merge_samePlace (map_key_sortOn hperm)
  refine forall₂_of_mem hplaces ?_
  intro r' hr' r hr hplace
  rw [hmerge', List.mem_map] at hr'
  rw [hmerge, List.mem_map] at hr
  obtain ⟨b', hb', rfl⟩ := hr'
  obtain ⟨b, hb, rfl⟩ := hr
  refine ⟨hplace.1, hplace.2, ?_⟩
  rw [hcuts'.cards_iff (hclashSorted.of_mem fun s hs => (hmem s).mp hs) hb',
    hcuts.cards_iff hclashSorted hb]
  simp only [hmem, Region.StartsIn, hplace.1, hplace.2]

end Permuted

section Claim

variable (text : List Char) (spans : List LocalSpan) (keep : LocalSpan → Bool)

theorem selected_valid : ∀ s ∈ selected text spans keep, s.start ≤ s.stop ∧
    isCharBoundary text s.start = true ∧ isCharBoundary text s.stop = true := by
  intro s hs
  have hkeep := (List.mem_filter.mp hs).2
  rw [Bool.and_eq_true] at hkeep
  exact TextBytes.ends_of_slice hkeep.2

end Claim

end ClipMasking
