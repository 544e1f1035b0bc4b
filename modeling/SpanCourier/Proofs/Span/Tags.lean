import Mathlib.Data.List.Induction
import Mathlib.Data.List.Nodup
import SpanCourier.Span.Tags

set_option autoImplicit false

/-! # What tags hold after several of them were set

Tags are what can be looked up in them: each key stands once, with its value
(`Tags.mem_entries_iff`), and tags with the same values are the same (`Tags.eq_of_get?`). After
several calls a key has the value that it was given last (`Tags.get?_insertAll`), so calls that
agree in that leave the same tags, and calls with different keys may be made in any order
(`Tags.insertAll_perm`).
-/

namespace SpanCourier

/-- The value that a key was given last among some calls. -/
def lastValue? (calls : List (String × String)) (key : String) : Option String :=
  (calls.reverse.find? fun call => call.1 = key).map (·.2)

theorem lastValue?_concat (calls : List (String × String)) (call : String × String)
    (key : String) :
    lastValue? (calls ++ [call]) key =
      if key = call.1 then some call.2 else lastValue? calls key := by
  by_cases h : key = call.1
  · simp [lastValue?, h]
  · simp [lastValue?, h, Ne.symm h]

/-- A key has a last value exactly if it was given one. -/
theorem lastValue?_eq_none_iff {calls : List (String × String)} {key : String} :
    lastValue? calls key = none ↔ key ∉ calls.map Prod.fst := by
  rw [lastValue?, Option.map_eq_none_iff, List.find?_eq_none]
  constructor
  · intro h hmem
    obtain ⟨call, hcall, hkey⟩ := List.mem_map.1 hmem
    exact h call (List.mem_reverse.2 hcall) (decide_eq_true hkey)
  · intro h call hcall hkey
    exact h (List.mem_map.2 ⟨call, List.mem_reverse.1 hcall, of_decide_eq_true hkey⟩)

/-- Among entries with different keys, the value of a key is the one that stands beside it. -/
theorem find?_key_eq_some_iff {entries : List (String × String)}
    (hkeys : (entries.map Prod.fst).Nodup) {key value : String} :
    (entries.find? fun entry => entry.1 = key).map (·.2) = some value ↔ (key, value) ∈ entries := by
  constructor
  · intro h
    obtain ⟨⟨k, v⟩, hfind, rfl⟩ := Option.map_eq_some_iff.1 h
    have hkey : k = key := by simpa using List.find?_some hfind
    rw [← hkey]
    exact List.mem_of_find?_eq_some hfind
  · intro hmem
    have hsome : (entries.find? fun entry => entry.1 = key).isSome := by
      rw [List.find?_isSome]
      exact ⟨(key, value), hmem, decide_eq_true rfl⟩
    obtain ⟨entry, hfind⟩ := Option.isSome_iff_exists.1 hsome
    have hkey : entry.1 = key := by simpa using List.find?_some hfind
    have hsame : entry = (key, value) :=
      List.inj_on_of_nodup_map hkeys (List.mem_of_find?_eq_some hfind) hmem hkey
    rw [hfind, hsame]
    rfl

/-- Among calls with different keys, each key has the value that it was given. -/
theorem lastValue?_eq_some_iff {calls : List (String × String)}
    (hkeys : (calls.map Prod.fst).Nodup) {key value : String} :
    lastValue? calls key = some value ↔ (key, value) ∈ calls := by
  have hreverse : (calls.reverse.map Prod.fst).Nodup := by
    rw [List.map_reverse]
    exact List.nodup_reverse.2 hkeys
  rw [lastValue?, find?_key_eq_some_iff hreverse, List.mem_reverse]

namespace Tags

/-- No key stands twice. -/
theorem nodup_keys (tags : Tags) : (tags.entries.map Prod.fst).Nodup := by
  refine List.pairwise_map.2 (tags.sorted.imp ?_)
  intro a b hlt heq
  rw [heq] at hlt
  exact KeyLt.irrefl _ hlt

/-- What stands in tags is what can be looked up. -/
theorem mem_entries_iff (tags : Tags) {key value : String} :
    (key, value) ∈ tags.entries ↔ tags.get? key = some value :=
  (find?_key_eq_some_iff tags.nodup_keys).symm

/-- Tags in which the same can be looked up are the same. -/
theorem eq_of_get? {a b : Tags} (h : ∀ key, a.get? key = b.get? key) : a = b := by
  have hperm : a.entries.Perm b.entries := by
    refine (List.perm_ext_iff_of_nodup a.nodup_keys.of_map b.nodup_keys.of_map).2 ?_
    rintro ⟨key, value⟩
    rw [mem_entries_iff, mem_entries_iff, h]
  have hentries : a.entries = b.entries := by
    refine List.Perm.eq_of_pairwise (fun x y _ _ hxy hyx => ?_) a.sorted b.sorted hperm
    exact absurd (hxy.trans hyx) (KeyLt.irrefl _)
  cases a
  cases b
  cases hentries
  rfl

theorem insertAll_concat (tags : Tags) (calls : List (String × String))
    (call : String × String) :
    tags.insertAll (calls ++ [call]) = (tags.insertAll calls).insert call.1 call.2 := by
  rw [insertAll, List.foldl_append]
  rfl

theorem insertAll_append (tags : Tags) (calls more : List (String × String)) :
    tags.insertAll (calls ++ more) = (tags.insertAll calls).insertAll more :=
  List.foldl_append

/-- After some calls a key has the value that it was given last. -/
theorem get?_insertAll (calls : List (String × String)) (key : String) :
    (empty.insertAll calls).get? key = lastValue? calls key := by
  induction calls using List.reverseRec with
  | nil => rfl
  | append_singleton calls call ih =>
    rw [insertAll_concat, get?_insert, lastValue?_concat, ih]

/-- Calls that agree in the last value of every key leave the same tags. -/
theorem insertAll_eq {calls others : List (String × String)}
    (h : ∀ key, lastValue? calls key = lastValue? others key) :
    empty.insertAll calls = empty.insertAll others := by
  refine eq_of_get? fun key => ?_
  rw [get?_insertAll, get?_insertAll, h]

/-- Calls with different keys may be made in any order. -/
theorem insertAll_perm {calls others : List (String × String)}
    (hkeys : (calls.map Prod.fst).Nodup) (hperm : calls.Perm others) :
    empty.insertAll calls = empty.insertAll others := by
  have hothers : (others.map Prod.fst).Nodup := (hperm.map Prod.fst).nodup_iff.1 hkeys
  refine insertAll_eq fun key => Option.ext fun value => ?_
  rw [lastValue?_eq_some_iff hkeys, lastValue?_eq_some_iff hothers, hperm.mem_iff]

/-- Tags are what is left if their entries are set one after the other. -/
theorem insertAll_entries (tags : Tags) : empty.insertAll tags.entries = tags := by
  refine eq_of_get? fun key => Option.ext fun value => ?_
  rw [get?_insertAll, lastValue?_eq_some_iff tags.nodup_keys, mem_entries_iff]

end Tags

end SpanCourier
