import Mathlib.Data.List.Induction
import Mathlib.Data.List.Nodup
import Mathlib.Data.List.Perm.Subperm
import PictureMarkup.Styles

/-!
# Keys of resources

Whatever drawings are added to a styles document, their keys are pairwise distinct and made
of plain characters, and each was chosen by one rule when its drawing was added
(`ResourceKey.Fresh`): the key of the file if that was free, and otherwise that key with the
least number behind it that made it free.

Keys with a number and keys without one can be the same texts, so the rule looks at all the
keys there are. It always finds a free one, since the attempts differ from each other
(`ResourceKey.numbered_injective`) and cannot all be among finitely many keys
(`ResourceKey.fresh_firstFree`). The rule leaves no choice (`ResourceKey.Fresh.unique`), so
the keys follow from the file names alone.
-/

namespace PictureMarkup

namespace ResourceKey

/-! ## The characters of keys -/

/-- An underscore, and behind it letters, digits and underscores only. -/
def IsKey (k : String) : Prop :=
  ∃ cs, k.toList = '_' :: cs ∧ ∀ c ∈ cs, c.isAlphanum ∨ c = '_'

theorem isKey_ofPath (path : String) : IsKey (ofPath path) := by
  refine ⟨(FileName.stem (fileName path.toList)).map keyChar, String.toList_ofList, ?_⟩
  intro c member
  obtain ⟨d, -, rfl⟩ := List.mem_map.mp member
  unfold keyChar
  by_cases plain : d.isAlphanum
  · rw [if_pos plain]
    exact .inl plain
  · rw [if_neg plain]
    exact .inr rfl

theorem isKey_numbered {base : String} (h : IsKey base) (n : Nat) : IsKey (numbered base n) := by
  unfold numbered
  by_cases first : n = 0
  · rwa [if_pos first]
  · rw [if_neg first]
    obtain ⟨cs, chars, plain⟩ := h
    refine ⟨cs ++ '_' :: Nat.toDigits 10 n, ?_, ?_⟩
    · simp [String.toList_append, chars]
    · intro c member
      rcases List.mem_append.mp member with member | member
      · exact plain c member
      · rcases List.mem_cons.mp member with rfl | digit
        · exact .inr rfl
        · have isDigit : c.isDigit := Nat.isDigit_of_mem_toDigits (by decide) (by decide) digit
          left
          simp [Char.isAlphanum, isDigit]

/-! ## The choice of a key -/

/-- The key that a base gets where some keys are taken: the base if it is free, and otherwise
the base with the least positive number that is free. There is no need to go beyond the number
of the keys. -/
inductive Fresh (taken : List String) (base : String) : String → Prop
  | base (free : base ∉ taken) : Fresh taken base base
  | numbered {n : Nat} (occupied : base ∈ taken) (positive : 1 ≤ n)
      (free : base ++ "_" ++ toString n ∉ taken)
      (least : ∀ m, 1 ≤ m → m < n → base ++ "_" ++ toString m ∈ taken)
      (bound : n ≤ taken.length) : Fresh taken base (base ++ "_" ++ toString n)

theorem numbered_of_pos (base : String) {n : Nat} (positive : 1 ≤ n) :
    numbered base n = base ++ "_" ++ toString n :=
  if_neg (by omega)

theorem firstFree_eq_numbered (taken : List String) (base : String) (n : Nat) :
    ∃ m, n ≤ m ∧ firstFree taken base n = numbered base m ∧ numbered base m ∉ taken ∧
      ∀ i, n ≤ i → i < m → numbered base i ∈ taken := by
  fun_induction firstFree taken base n with
  | case1 n occupied ih =>
      obtain ⟨m, later, found, free, before⟩ := ih
      refine ⟨m, by omega, found, free, fun i from_ below => ?_⟩
      by_cases here : i = n
      · exact here ▸ occupied
      · exact before i (by omega) below
  | case2 n free => exact ⟨n, Nat.le_refl n, rfl, free, fun i from_ below => by omega⟩

/-- Attempts that are all taken are as many keys. -/
theorem le_length_of_taken {taken : List String} {base : String} {n : Nat}
    (all : ∀ i < n, numbered base i ∈ taken) : n ≤ taken.length := by
  have distinct : ((List.range n).map (numbered base)).Nodup :=
    List.Nodup.map (fun _ _ same => numbered_injective base same) List.nodup_range
  have inside : (List.range n).map (numbered base) ⊆ taken := by
    intro k member
    obtain ⟨i, below, rfl⟩ := List.mem_map.mp member
    exact all i (List.mem_range.mp below)
  have lengths := (distinct.subperm inside).length_le
  rwa [List.length_map, List.length_range] at lengths

/-- The search ends with the key that the rule asks for. -/
theorem fresh_firstFree (taken : List String) (base : String) :
    Fresh taken base (firstFree taken base 0) := by
  obtain ⟨n, -, found, free, before⟩ := firstFree_eq_numbered taken base 0
  rw [found]
  by_cases first : n = 0
  · subst first
    exact .base free
  · have positive : 1 ≤ n := by omega
    have occupied : numbered base 0 ∈ taken := before 0 (Nat.le_refl 0) positive
    have bound : n ≤ taken.length := le_length_of_taken fun i below => before i (Nat.zero_le i) below
    rw [numbered_of_pos base positive] at free ⊢
    refine .numbered occupied positive free (fun m above below => ?_) bound
    rw [← numbered_of_pos base above]
    exact before m (Nat.zero_le m) below

namespace Fresh

variable {taken taken' : List String} {base k k' : String}

theorem free (h : Fresh taken base k) : k ∉ taken := by
  cases h with
  | base free => exact free
  | numbered _ _ free _ _ => exact free

/-- The rule looks at which keys there are, not at their order. -/
theorem perm (h : Fresh taken base k) (same : taken.Perm taken') : Fresh taken' base k := by
  cases h with
  | base free => exact .base fun member => free (same.mem_iff.mpr member)
  | numbered occupied positive free least bound =>
      refine .numbered (same.mem_iff.mp occupied) positive
        (fun member => free (same.mem_iff.mpr member)) (fun m above below => ?_)
        (same.length_eq ▸ bound)
      exact same.mem_iff.mp (least m above below)

/-- The rule leaves no choice. -/
theorem unique (h : Fresh taken base k) (h' : Fresh taken base k') : k = k' := by
  cases h with
  | base free =>
      cases h' with
      | base _ => rfl
      | numbered occupied => exact absurd occupied free
  | @numbered n occupied positive free least =>
      cases h' with
      | base free' => exact absurd occupied free'
      | @numbered n' _ positive' free' least' =>
          rcases Nat.lt_trichotomy n n' with less | same | more
          · exact absurd (least' n positive less) free
          · rw [same]
          · exact absurd (least n' positive' more) free'

end Fresh

end ResourceKey

/-! ## Documents -/

namespace StylesDocument

open ResourceKey

/-- The document to which some drawings have been added in their order. -/
def ofEntries (preview : Bool) (es : List StyleEntry) : StylesDocument :=
  es.foldl push { preview }

theorem ofEntries_append_one (preview : Bool) (es : List StyleEntry) (e : StyleEntry) :
    ofEntries preview (es ++ [e]) = (ofEntries preview es).push e :=
  List.foldl_append

@[simp] theorem keys_push (d : StylesDocument) (e : StyleEntry) :
    (d.push e).keys = d.keys ++ [d.nextKey e.fileName] := by
  simp [keys, push]

/-- The keys of a document are the keys that are taken, each for one drawing, and all of them
are keys by their characters. -/
structure Keyed (d : StylesDocument) : Prop where
  reserved : d.reserved.Perm d.keys
  nodup : d.keys.Nodup
  isKey : ∀ k ∈ d.keys, IsKey k

namespace Keyed

variable {d : StylesDocument}

/-- The key of the next drawing follows the rule. -/
theorem fresh_nextKey (h : Keyed d) (fileName : String) :
    Fresh d.keys (ofPath fileName) (d.nextKey fileName) :=
  (fresh_firstFree d.reserved (ofPath fileName)).perm h.reserved

theorem isKey_nextKey (d : StylesDocument) (fileName : String) : IsKey (d.nextKey fileName) := by
  obtain ⟨n, -, found, -⟩ := firstFree_eq_numbered d.reserved (ofPath fileName) 0
  unfold nextKey
  rw [found]
  exact isKey_numbered (isKey_ofPath fileName) n

theorem push (h : Keyed d) (e : StyleEntry) : Keyed (d.push e) where
  reserved := by
    rw [keys_push]
    exact (h.reserved.cons _).trans (List.perm_append_singleton _ _).symm
  nodup := by
    have free := (h.fresh_nextKey e.fileName).free
    rw [keys_push, (List.perm_append_singleton _ _).nodup_iff]
    exact List.nodup_cons.mpr ⟨free, h.nodup⟩
  isKey := by
    intro k member
    rw [keys_push] at member
    rcases List.mem_append.mp member with earlier | last
    · exact h.isKey k earlier
    · rw [List.mem_singleton.mp last]
      exact isKey_nextKey d e.fileName

end Keyed

theorem keyed_ofEntries (preview : Bool) (es : List StyleEntry) : Keyed (ofEntries preview es) := by
  induction es using List.reverseRecOn with
  | nil => exact ⟨.nil, .nil, fun k member => absurd member List.not_mem_nil⟩
  | append_singleton es e ih =>
      rw [ofEntries_append_one]
      exact ih.push e

theorem entries_ofEntries (preview : Bool) (es : List StyleEntry) :
    (ofEntries preview es).entries.map Prod.snd = es := by
  induction es using List.reverseRecOn with
  | nil => rfl
  | append_singleton es e ih =>
      rw [ofEntries_append_one]
      simp [StylesDocument.push, ih]

/-- The keys follow from the file names: each is the one that the rule gives behind the keys
before it. -/
theorem keys_congr (preview preview' : Bool) (es es' : List StyleEntry)
    (names : es.map StyleEntry.fileName = es'.map StyleEntry.fileName) :
    (ofEntries preview es).keys = (ofEntries preview' es').keys := by
  induction es using List.reverseRecOn generalizing es' with
  | nil =>
      rw [List.map_eq_nil_iff.mp names.symm]
      rfl
  | append_singleton es e ih =>
      rw [List.map_append] at names
      obtain ⟨others, last, rfl, first, final⟩ := List.map_eq_append_iff.mp names.symm
      obtain ⟨e', rest, rfl, name, nothing⟩ := List.map_eq_cons_iff.mp final
      rw [List.map_eq_nil_iff.mp nothing, ofEntries_append_one, ofEntries_append_one, keys_push,
        keys_push]
      have same := ih others first.symm
      have rule := (keyed_ofEntries preview es).fresh_nextKey e.fileName
      have rule' := (keyed_ofEntries preview' others).fresh_nextKey e'.fileName
      rw [name, ← same] at rule'
      rw [rule.unique rule', same, name]

/-- **Keys are assigned in order and never twice.** Behind any drawings that were added to a
document, the keys that are taken are the keys of its resources, all different, and plain texts
behind an underscore. The resources are the drawings in their order. One more drawing leaves
them as they are and comes behind them, and its key is that of its file if no resource had it,
and otherwise that with the least positive number that none had, which is at most the number
of resources. So other drawings with the same file names get the same keys. -/
theorem keys_assigned (preview : Bool) (es : List StyleEntry) :
    let d := ofEntries preview es
    (∀ k, k ∈ d.reserved ↔ k ∈ d.keys) ∧
      d.keys.Nodup ∧
      (∀ k ∈ d.keys, IsKey k) ∧
      d.entries.map Prod.snd = es ∧
      (∀ e, ∃ key, (ofEntries preview (es ++ [e])).entries = d.entries ++ [(key, e)] ∧
        Fresh d.keys (ofPath e.fileName) key) ∧
      ∀ preview' es', es'.map StyleEntry.fileName = es.map StyleEntry.fileName →
        (ofEntries preview' es').keys = d.keys := by
  intro d
  have keyed := keyed_ofEntries preview es
  refine ⟨fun k => keyed.reserved.mem_iff, keyed.nodup, keyed.isKey, entries_ofEntries preview es,
    fun e => ?_, fun preview' es' names => keys_congr preview' preview es' es names⟩
  refine ⟨d.nextKey e.fileName, ?_, keyed.fresh_nextKey e.fileName⟩
  rw [ofEntries_append_one]
  rfl

/-- A key with a number can be the key of another file, which then gets a number as well. -/
example :
    let entry name : StyleEntry := ⟨name, .image, {}⟩
    (ofEntries false [entry "x.svg", entry "b/x.svg", entry "x_1.svg", entry "x.png"]).keys =
      ["_x", "_x_1", "_x_1_1", "_x_2"] := by cbv

end StylesDocument

end PictureMarkup
