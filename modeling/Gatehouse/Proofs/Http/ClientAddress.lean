import Gatehouse.Http.Header
import Gatehouse.Proofs.Text.Blanks
import Gatehouse.Proofs.Text.Pieces

/-! # The address that is noted for a client

What is noted is the first entry of the first header in which proxies note addresses, the address of the other
side, or a word that says that neither is known. It is a text without commas and without blanks at its ends, and
never the empty one: an entry that is blank does not count, and the text of an address has its separators.
-/

namespace Gatehouse.Http

open Gatehouse.Text

namespace Address

/-! ## The text of an address -/

/-- Four octets, or eight groups. -/
def Sized : Address → Prop
  | v4 octets => octets.length = 4
  | v6 groups => groups.length = 8

theorem length_of_mapM {α β : Type} {f : α → Option β} {xs : List α} {ys : List β} (h : xs.mapM f = some ys) :
    ys.length = xs.length := by
  induction xs generalizing ys with
  | nil =>
      cases h
      rfl
  | cons x xs ih =>
      rw [List.mapM_cons] at h
      obtain ⟨y, _, h⟩ := Option.bind_eq_some_iff.mp h
      obtain ⟨zs, rest, h⟩ := Option.bind_eq_some_iff.mp h
      cases h
      rw [List.length_cons, List.length_cons, ih rest]

theorem length_of_octets? {cs : List Char} {octets : List Nat} (h : octets? cs = some octets) :
    octets.length = 4 := by
  simp only [octets?] at h
  split at h
  · rename_i four
    rw [length_of_mapM h, four]
  · cases h

theorem length_of_eightGroups? {cs : List Char} {groups : List Nat} (h : eightGroups? cs = some groups) :
    groups.length = 8 := by
  rw [eightGroups?] at h
  split at h
  · obtain ⟨front, _, h⟩ := Option.bind_eq_some_iff.mp h
    obtain ⟨behind, _, h⟩ := Option.bind_eq_some_iff.mp h
    split at h
    · cases h
      simp only [List.length_append, List.length_replicate]
      omega
    · cases h
  · exact of_decide_eq_true (Option.filter_eq_some_iff.mp h).2

/-- What is read for the other side of a connection has its size. -/
theorem sized_of_ofSocket? {s : String} {a : Address} (h : ofSocket? s = some a) : a.Sized := by
  unfold ofSocket? at h
  split at h
  · obtain ⟨⟨inside, after⟩, _, h⟩ := Option.bind_eq_some_iff.mp h
    dsimp only at h
    split at h
    · split at h
      · obtain ⟨groups, read, rfl⟩ := Option.map_eq_some_iff.mp h
        exact length_of_eightGroups? read
      · cases h
    · cases h
  · obtain ⟨⟨address, port⟩, _, h⟩ := Option.bind_eq_some_iff.mp h
    dsimp only at h
    split at h
    · obtain ⟨octets, read, rfl⟩ := Option.map_eq_some_iff.mp h
      exact length_of_octets? read
    · cases h

/-- The characters in which addresses are written. -/
def isWritten (c : Char) : Bool :=
  c.isAlphanum || c = '.' || c = ':'

theorem isVisible_of_isWritten {c : Char} (h : isWritten c = true) : IsVisible c := by
  simp only [isWritten, Bool.or_eq_true, decide_eq_true_eq] at h
  rcases h with (alphanum | rfl) | rfl
  · exact isVisible_of_isAlphanum alphanum
  all_goals decide

theorem isWritten_of_isAlphanum {c : Char} (h : c.isAlphanum = true) : isWritten c = true := by
  rw [isWritten, h]
  rfl

theorem isWritten_of_mem_hexDigits {n : Nat} {c : Char} (h : c ∈ hexDigits n) : isWritten c = true := by
  have digit {m : Nat} (hm : m < 16) : isWritten (Nat.digitChar m) = true := by
    have each : ∀ m : Fin 16, isWritten (Nat.digitChar m.val) = true := by decide
    exact each ⟨m, hm⟩
  induction n using Nat.strongRecOn with
  | _ n ih =>
      rw [hexDigits] at h
      split at h
      · rw [List.mem_singleton.mp h]
        exact digit ‹n < 16›
      · rcases List.mem_append.mp h with front | last
        · exact ih (n / 16) (by omega) front
        · rw [List.mem_singleton.mp last]
          exact digit (Nat.mod_lt n (by decide))

theorem isWritten_of_mem_octetText {octets : List Nat} {c : Char} (h : c ∈ octetText octets) :
    isWritten c = true := by
  rcases mem_of_mem_intercalate '.' h with rfl | ⟨p, hp, among⟩
  · rfl
  · obtain ⟨n, _, rfl⟩ := List.mem_map.mp hp
    exact isWritten_of_isAlphanum (isAlphanum_of_mem_digits among)

theorem isWritten_of_mem_groupText {groups : List Nat} {c : Char} (h : c ∈ groupText groups) :
    isWritten c = true := by
  rcases mem_of_mem_intercalate ':' h with rfl | ⟨p, hp, among⟩
  · rfl
  · obtain ⟨n, _, rfl⟩ := List.mem_map.mp hp
    exact isWritten_of_mem_hexDigits among

/-- The newer kind of address is written in one of three ways. -/
theorem write_v6_cases (groups : List Nat) :
    (∃ octets, (v6 groups).write = "::ffff:".toList ++ octetText octets) ∨
      (∃ front behind, (v6 groups).write = groupText front ++ "::".toList ++ groupText behind) ∨
        (v6 groups).write = groupText groups := by
  unfold write
  dsimp only
  split
  · exact Or.inl ⟨_, rfl⟩
  · split
    · exact Or.inr (Or.inl ⟨_, _, rfl⟩)
    · exact Or.inr (Or.inr rfl)

theorem isWritten_of_mem_write {a : Address} {c : Char} (h : c ∈ a.write) : isWritten c = true := by
  have mapped : "::ffff:".toList.all isWritten = true := by decide
  have gap : "::".toList.all isWritten = true := by decide
  cases a with
  | v4 octets => exact isWritten_of_mem_octetText h
  | v6 groups =>
      rcases write_v6_cases groups with ⟨octets, eq⟩ | ⟨front, behind, eq⟩ | eq <;> rw [eq] at h
      · rcases List.mem_append.mp h with first | last
        · exact List.all_eq_true.mp mapped c first
        · exact isWritten_of_mem_octetText last
      · simp only [List.mem_append] at h
        rcases h with (first | among) | last
        · exact isWritten_of_mem_groupText first
        · exact List.all_eq_true.mp gap c among
        · exact isWritten_of_mem_groupText last
      · exact isWritten_of_mem_groupText h

theorem write_ne_nil {a : Address} (h : a.Sized) : a.write ≠ [] := by
  cases a with
  | v4 octets =>
      have four : octets.length = 4 := h
      have dots : '.' ∈ octetText octets := sep_mem_intercalate '.' (by rw [List.length_map]; omega)
      exact List.ne_nil_of_mem dots
  | v6 groups =>
      have eight : groups.length = 8 := h
      have colons : ':' ∈ groupText groups := sep_mem_intercalate ':' (by rw [List.length_map]; omega)
      rcases write_v6_cases groups with ⟨octets, eq⟩ | ⟨front, behind, eq⟩ | eq <;> rw [eq]
      · simp
      · simp
      · exact List.ne_nil_of_mem colons

end Address

namespace Headers

variable {headers : Headers} {peer : Option Address}

/-! ## What is noted -/

/-- A text that can be noted for a client. -/
structure IsNoted (ip : String) : Prop where
  filled : ip ≠ ""
  no_comma : ',' ∉ ip.toList
  trimmed : Trimmed ip.toList

/-- The first entry that proxies have noted, where it can be read. -/
def firstEntry (headers : Headers) : Option (List Char) :=
  (headers.text? "x-forwarded-for").map fun text => trimChars (text.takeWhile fun c => c ≠ ',')

theorem forwardedFor_eq (headers : Headers) : headers.forwardedFor = headers.firstEntry.bind nonEmpty := by
  have asked : headers.forwardedFor = (headers.text? "x-forwarded-for").bind fun text =>
      (pieces ',' text).head?.bind fun first => nonEmpty (trimChars first) := rfl
  simp only [asked, head?_pieces, Option.bind_some, firstEntry, Option.bind_map]
  rfl

theorem clientIp_of_entry {entry : List Char} (read : headers.firstEntry = some entry) (filled : entry ≠ []) :
    headers.clientIp peer = String.ofList entry := by
  have noted : headers.forwardedFor = some (String.ofList entry) := by
    rw [forwardedFor_eq, read, Option.bind_some, nonEmpty, if_neg filled]
  simp only [clientIp, noted]

theorem clientIp_of_no_entry (blank : ∀ entry ∈ headers.firstEntry, entry = []) :
    headers.clientIp peer = (peer.map Address.text).getD "unknown" := by
  have not_noted : headers.forwardedFor = none := by
    rw [forwardedFor_eq]
    cases read : headers.firstEntry with
    | none => rfl
    | some entry => rw [Option.bind_some, nonEmpty, if_pos (blank entry read)]
  cases peer <;> simp [clientIp, not_noted]

theorem isNoted_of_entry {entry : List Char} (read : headers.firstEntry = some entry) (filled : entry ≠ []) :
    IsNoted (String.ofList entry) := by
  obtain ⟨text, _, rfl⟩ := Option.map_eq_some_iff.mp read
  constructor
  · rwa [ne_eq, ← String.toList_eq_nil_iff, String.toList_ofList]
  · rw [String.toList_ofList]
    intro among
    have before := List.mem_takeWhile_imp (mem_of_mem_trimChars among)
    revert before
    decide
  · rw [String.toList_ofList]
    exact trimmed_trimChars _

theorem isNoted_of_address {a : Address} (h : a.Sized) : IsNoted a.text where
  filled := by
    rw [ne_eq, ← String.toList_eq_nil_iff, Address.text, String.toList_ofList]
    exact Address.write_ne_nil h
  no_comma := by
    rw [Address.text, String.toList_ofList]
    exact not_mem_of_class (fun c hc => Address.isWritten_of_mem_write hc) (by decide)
  trimmed := by
    rw [Address.text, String.toList_ofList]
    exact trimmed_of_visible fun c hc => Address.isVisible_of_isWritten (Address.isWritten_of_mem_write hc)

theorem isNoted_clientIp (sized : ∀ a ∈ peer, a.Sized) : IsNoted (headers.clientIp peer) := by
  by_cases filled : ∃ entry, headers.firstEntry = some entry ∧ entry ≠ []
  · obtain ⟨entry, read, filled⟩ := filled
    rw [clientIp_of_entry read filled]
    exact isNoted_of_entry read filled
  · have blank : ∀ entry ∈ headers.firstEntry, entry = [] := by
      intro entry read
      exact Classical.byContradiction fun some_chars => filled ⟨entry, read, some_chars⟩
    rw [clientIp_of_no_entry blank]
    cases peer with
    | some a => exact isNoted_of_address (sized a rfl)
    | none =>
        have letters : "unknown".toList.all Char.isAlphanum = true := by decide
        have trimmed : Trimmed "unknown".toList :=
          trimmed_of_visible fun c hc => isVisible_of_isAlphanum (List.all_eq_true.mp letters c hc)
        exact ⟨by decide, by decide, trimmed⟩

end Headers

end Gatehouse.Http
