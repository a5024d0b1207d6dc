import Etracker.Foundation.Outcome
import Etracker.HashList.Entries

namespace Etracker

open Foundation Foundation.CString Foundation.Chain Foundation.Outcome

variable {α σ : Type}

def passed (hashLength : Nat) (hash : Hash) (entry : Entry α) : Bool :=
  memcmp entry.2.hash hash hashLength = .lt

/-- The search stops early at the first item that does not sort before the hash. -/
theorem findKey_eq_stop {hashLength : Nat} {hash : Hash} {entries : List (Entry α)}
    (length : hash.length = hashLength)
    (lengths : ∀ entry ∈ entries, entry.2.hash.length = hashLength)
    (sorted : entries.Pairwise (Before hashLength)) :
    Keyed.findKey entryHash entries hash =
      (entries.dropWhile (passed hashLength hash)).head?.filter
        fun entry => memcmp entry.2.hash hash hashLength = .eq := by
  induction entries with
  | nil => rfl
  | cons entry rest ih =>
      obtain ⟨ahead, sorted⟩ := List.pairwise_cons.mp sorted
      have entryLength := lengths entry (by simp)
      have equal := memcmp_eq_iff entryLength length
      cases compared : memcmp entry.2.hash hash hashLength with
      | lt =>
          have differs : entryHash entry ≠ hash := by
            intro same
            rw [equal.mpr same] at compared
            cases compared
          rw [List.dropWhile_cons_of_pos (by simp [passed, compared]),
            ← ih (fun other member => lengths other (by simp [member])) sorted]
          simp [Keyed.findKey, differs]
      | eq =>
          have same : entryHash entry = hash := equal.mp compared
          rw [List.dropWhile_cons_of_neg (by simp [passed, compared])]
          simp [Keyed.findKey, same, Option.filter_some, compared]
      | gt =>
          rw [List.dropWhile_cons_of_neg (by simp [passed, compared])]
          simp only [List.head?_cons, Option.filter_some, compared]
          apply Keyed.findKey_eq_none_iff.mpr
          intro other member same
          rcases List.mem_cons.mp member with rfl | later
          · rw [equal.mpr same] at compared
            cases compared
          · -- The hash sorts before this item, and this item before every later one.
            have before := memcmp_lt_trans ((memcmp_gt_iff _ _ _).mp compared) (ahead other later)
            simp only [entryHash] at same
            rw [same, memcmp_self] at before
            cases before

theorem getHashFrom_eq {list : HashList α} (hash : Hash) {entries : List (Entry α)} {fuel : Nat}
    {before first : Option Address} (enough : entries.length ≤ fuel)
    (chain : Segment itemLayout list.items before first entries none) :
    getHashFrom list hash fuel first =
      .ok (((entries.dropWhile (passed list.hashLength hash)).head?.filter
        fun entry => memcmp entry.2.hash hash list.hashLength = .eq).map Prod.fst) := by
  induction entries generalizing before first fuel with
  | nil =>
      cases (chain : first = none)
      cases fuel <;> rfl
  | cons entry rest ih =>
      obtain ⟨rfl, item, stored, _, carried, chain⟩ := chain
      have hashes : item.hash = entry.2.hash := by rw [← carried]; rfl
      cases fuel with
      | zero => simp at enough
      | succ fuel =>
          simp only [getHashFrom, HashList.deref, stored, pure_eq_ok, ok_bind, hashes]
          cases compared : memcmp entry.2.hash hash list.hashLength with
          | lt =>
              rw [List.dropWhile_cons_of_pos (by simp [passed, compared])]
              exact ih (by simpa using enough) chain
          | eq =>
              rw [List.dropWhile_cons_of_neg (by simp [passed, compared])]
              simp [Option.filter_some, compared]
          | gt =>
              rw [List.dropWhile_cons_of_neg (by simp [passed, compared])]
              simp [Option.filter_some, compared]

theorem getHash_eq {list : HashList α} (linked : Linked list) {hash : Hash}
    (length : hash.length = list.hashLength) :
    getHash list hash = .ok ((list.lookup hash).map Prod.fst) := by
  have lengths : ∀ entry ∈ list.leafEntries (list.getLeaf hash),
      entry.2.hash.length = list.hashLength :=
    fun entry member => (linked.routed _ entry member).1
  rw [lookup_eq_leaf linked, findKey_eq_stop length lengths (linked.sorted _)]
  exact getHashFrom_eq hash (Represents.length_le linked _) (linked.linked _)

theorem setHashFrom_eq {list : HashList α} (hash : Hash) {entries : List (Entry α)} {fuel : Nat}
    {before first : Option Address} (enough : entries.length ≤ fuel)
    (chain : Segment itemLayout list.items before first entries none) :
    let stop := entries.dropWhile (passed list.hashLength hash)
    setHashFrom list hash fuel before first =
      .ok ((stop.head?.filter
          fun entry => memcmp entry.2.hash hash list.hashLength = .eq).map Prod.fst,
        last before (entries.takeWhile (passed list.hashLength hash)), head none stop) := by
  induction entries generalizing before first fuel with
  | nil =>
      cases (chain : first = none)
      cases fuel <;> rfl
  | cons entry rest ih =>
      obtain ⟨rfl, item, stored, _, carried, chain⟩ := chain
      have hashes : item.hash = entry.2.hash := by rw [← carried]; rfl
      cases fuel with
      | zero => simp at enough
      | succ fuel =>
          simp only [setHashFrom, HashList.deref, stored, pure_eq_ok, ok_bind, hashes]
          cases compared : memcmp entry.2.hash hash list.hashLength with
          | lt =>
              rw [List.dropWhile_cons_of_pos (by simp [passed, compared]),
                List.takeWhile_cons_of_pos (by simp [passed, compared])]
              exact ih (by simpa using enough) chain
          | eq =>
              rw [List.dropWhile_cons_of_neg (by simp [passed, compared]),
                List.takeWhile_cons_of_neg (by simp [passed, compared])]
              simp [Option.filter_some, compared, last, head]
          | gt =>
              rw [List.dropWhile_cons_of_neg (by simp [passed, compared]),
                List.takeWhile_cons_of_neg (by simp [passed, compared])]
              simp [Option.filter_some, compared, last, head]

theorem setHash_found {list : HashList α} (linked : Linked list) {hash : Hash}
    (length : hash.length = list.hashLength) {entry : Entry α}
    (found : list.lookup hash = some entry) : setHash list hash = .ok (list, entry.1) := by
  have lengths : ∀ entry ∈ list.leafEntries (list.getLeaf hash),
      entry.2.hash.length = list.hashLength :=
    fun entry member => (linked.routed _ entry member).1
  rw [lookup_eq_leaf linked, findKey_eq_stop length lengths (linked.sorted _)] at found
  simp only [setHash, setHashFrom_eq hash (Represents.length_le linked _) (linked.linked _),
    ok_bind, found]
  rfl

theorem modifyUnlessNull_eq (list : HashList α) (target : Option Address)
    (change : Item α → Item α)
    (allocated : ∀ address, target = some address → ∃ item, list.items address = some item) :
    list.modifyUnlessNull target change =
      .ok { list with items := relink list.items target change } := by
  cases target with
  | none => rfl
  | some address =>
      obtain ⟨item, stored⟩ := allocated address rfl
      simp [HashList.modifyUnlessNull, HashList.modify, HashList.deref, relink, stored]

end Etracker
