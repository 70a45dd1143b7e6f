/-! # Bindings

Names bound to values, in the order in which the names were first bound. Binding a name again keeps
its place. -/

namespace Scriptlet

/-- The entries with a name bound to a value: in its place if it is there, else at the end. -/
def bindEntry {α : Type} (name : String) (value : α) : List (String × α) → List (String × α)
  | [] => [(name, value)]
  | entry :: rest =>
    if entry.1 = name then (name, value) :: rest else entry :: bindEntry name value rest

/-- Binding a name adds it at the end unless it is there already. -/
theorem map_fst_bindEntry {α : Type} (name : String) (value : α) (entries : List (String × α)) :
    (bindEntry name value entries).map Prod.fst =
      if name ∈ entries.map Prod.fst then entries.map Prod.fst
      else entries.map Prod.fst ++ [name] := by
  induction entries with
  | nil => simp [bindEntry]
  | cons entry rest ih =>
    by_cases h : entry.1 = name
    · simp [bindEntry, h]
    · have h' : ¬ name = entry.1 := fun hname => h hname.symm
      simp only [bindEntry, if_neg h, List.map_cons, ih, List.mem_cons, h', false_or]
      split <;> simp

/-- Binding a name keeps the names distinct. -/
theorem nodup_bindEntry {α : Type} (name : String) (value : α) {entries : List (String × α)}
    (h : (entries.map Prod.fst).Nodup) : ((bindEntry name value entries).map Prod.fst).Nodup := by
  rw [map_fst_bindEntry]
  split
  · exact h
  · rename_i hname
    rw [List.nodup_append]
    refine ⟨h, by simp, ?_⟩
    intro held hheld added hadded hsame
    simp only [List.mem_singleton] at hadded
    exact hname (hadded ▸ hsame ▸ hheld)

/-- Distinct names bound to values, in order. -/
structure Bindings (α : Type) where
  /-- The names and their values. -/
  entries : List (String × α)
  /-- No name is bound twice. -/
  distinct : (entries.map Prod.fst).Nodup
  deriving Repr, DecidableEq

namespace Bindings

variable {α : Type}

/-- No bindings. -/
def empty : Bindings α :=
  ⟨[], List.nodup_nil⟩

/-- The bound names, in order. -/
def names (bindings : Bindings α) : List String :=
  bindings.entries.map Prod.fst

/-- The value of a name. -/
def get? (bindings : Bindings α) (name : String) : Option α :=
  (bindings.entries.find? (·.1 == name)).map Prod.snd

/-- Whether a name is bound. -/
def holds (bindings : Bindings α) (name : String) : Bool :=
  bindings.entries.any (·.1 == name)

/-- Binds a name to a value. -/
def insert (bindings : Bindings α) (name : String) (value : α) : Bindings α :=
  ⟨bindEntry name value bindings.entries, nodup_bindEntry name value bindings.distinct⟩

/-- The names after binding one: as before, with the name at the end if it is new. -/
theorem names_insert (bindings : Bindings α) (name : String) (value : α) :
    (bindings.insert name value).names =
      if name ∈ bindings.names then bindings.names else bindings.names ++ [name] :=
  map_fst_bindEntry name value bindings.entries

/-- The value of a name after binding one. -/
theorem get?_insert (bindings : Bindings α) (name sought : String) (value : α) :
    (bindings.insert name value).get? sought =
      if name = sought then some value else bindings.get? sought := by
  simp only [get?, insert]
  induction bindings.entries with
  | nil => by_cases h : name = sought <;> simp [bindEntry, h]
  | cons entry rest ih =>
    by_cases hname : entry.1 = name
    · by_cases hsought : name = sought <;> simp_all [bindEntry]
    · simp only [bindEntry, if_neg hname, List.find?_cons]
      by_cases hentry : entry.1 = sought
      · have hsought : ¬ name = sought := fun h => hname (hentry.trans h.symm)
        rw [if_neg hsought, beq_iff_eq.mpr hentry]
      · rw [beq_eq_false_iff_ne.mpr hentry, ih]

/-- Binds names one after the other. -/
def ofList (entries : List (String × α)) : Bindings α :=
  entries.foldl (fun bindings entry => bindings.insert entry.1 entry.2) empty

end Bindings

end Scriptlet
