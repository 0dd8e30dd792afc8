/-!
# Entries with distinct keys

A list of entries in which a key keeps the position of its first insertion.  `put` replaces the
value of a key that is present and appends a new one, `erase` drops a key, and both keep the keys
distinct.
-/

set_option autoImplicit false

namespace DotDoc

abbrev Entries (α : Type) := List (String × α)

namespace Entries

variable {α : Type}

def keys (entries : Entries α) : List String :=
  entries.map Prod.fst

def find? (key : String) : Entries α → Option α
  | [] => none
  | (k, value) :: rest => if k = key then some value else find? key rest

/-- `value` under `key`: in place when the key is present, else at the end. -/
def put (key : String) (value : α) : Entries α → Entries α
  | [] => [(key, value)]
  | (k, held) :: rest => if k = key then (k, value) :: rest else (k, held) :: put key value rest

def erase (key : String) (entries : Entries α) : Entries α :=
  entries.filter fun entry => entry.1 ≠ key

/-- The entries one after the other; of two with the same key the later value stands. -/
def putAll (added entries : Entries α) : Entries α :=
  added.foldl (fun held entry => put entry.1 entry.2 held) entries

@[simp] theorem keys_nil : keys ([] : Entries α) = [] := rfl

@[simp] theorem keys_cons (entry : String × α) (rest : Entries α) :
    keys (entry :: rest) = entry.1 :: keys rest := rfl

theorem keys_put_of_mem {key : String} {value : α} {entries : Entries α}
    (present : key ∈ keys entries) : keys (put key value entries) = keys entries := by
  induction entries with
  | nil => simp at present
  | cons entry rest ih =>
      obtain ⟨k, held⟩ := entry
      by_cases here : k = key
      · simp [put, here]
      · have later : key ∈ keys rest := by
          simpa [Ne.symm here] using present
        simp [put, here, ih later]

theorem keys_put_of_not_mem {key : String} {value : α} {entries : Entries α}
    (absent : key ∉ keys entries) : keys (put key value entries) = keys entries ++ [key] := by
  induction entries with
  | nil => rfl
  | cons entry rest ih =>
      obtain ⟨k, held⟩ := entry
      have other : k ≠ key := fun e => absent (by simp [e])
      have later : key ∉ keys rest := fun h => absent (by simp [h])
      simp [put, other, ih later]

theorem nodup_keys_put {key : String} {value : α} {entries : Entries α}
    (distinct : (keys entries).Nodup) : (keys (put key value entries)).Nodup := by
  by_cases present : key ∈ keys entries
  · rw [keys_put_of_mem present]; exact distinct
  · rw [keys_put_of_not_mem present]
    refine List.nodup_append.2 ⟨distinct, by simp, ?_⟩
    intro a ha b hb e
    simp at hb
    exact present (hb ▸ e ▸ ha)

theorem keys_erase (key : String) (entries : Entries α) :
    keys (erase key entries) = (keys entries).filter fun k => k ≠ key := by
  induction entries with
  | nil => rfl
  | cons entry rest ih =>
      have step : erase key (entry :: rest)
          = if entry.1 ≠ key then entry :: erase key rest else erase key rest := by
        by_cases here : entry.1 = key <;> simp [erase, here]
      by_cases here : entry.1 = key
      · simp [step, here, ih]
      · simp [step, here, ih]

theorem nodup_keys_erase {key : String} {entries : Entries α}
    (distinct : (keys entries).Nodup) : (keys (erase key entries)).Nodup := by
  rw [keys_erase]; exact distinct.filter _

theorem nodup_keys_putAll {added entries : Entries α}
    (distinct : (keys entries).Nodup) : (keys (putAll added entries)).Nodup := by
  induction added generalizing entries with
  | nil => exact distinct
  | cons entry rest ih => exact ih (nodup_keys_put distinct)

theorem find?_put_self (key : String) (value : α) (entries : Entries α) :
    find? key (put key value entries) = some value := by
  induction entries with
  | nil => simp [put, find?]
  | cons entry rest ih =>
      obtain ⟨k, held⟩ := entry
      by_cases here : k = key <;> simp [put, find?, here, ih]

theorem find?_put_of_ne {key other : String} (different : other ≠ key) (value : α)
    (entries : Entries α) : find? other (put key value entries) = find? other entries := by
  induction entries with
  | nil => simp [put, find?, Ne.symm different]
  | cons entry rest ih =>
      obtain ⟨k, held⟩ := entry
      by_cases here : k = key
      · subst here; simp [put, find?, Ne.symm different]
      · by_cases found : k = other
        · subst found; simp [put, find?, here]
        · simp [put, find?, here, found, ih]

end Entries
end DotDoc
