import DataAccess.Proofs.Sql.Sites
import DataAccess.Proofs.Sql.Writing

/-!
The placeholders of a compiled query are numbered from left to right, and its parameters are the
values of its places, one place after the other.
-/
namespace DataAccess
open Sql Text

namespace Clause

def Tidy (c : Clause) : Prop := (sql c).Binds (sql c).params

def valuesOf (parts : List Clause) : List Json := parts.flatMap fun p => (sql p).params

theorem binds_joined (o : Operator) {parts : List Clause} (h : ∀ p ∈ parts, Tidy p) :
    (sql (joined o parts)).Binds (valuesOf parts) := by
  rw [sql_joined]
  refine .joined ?_ (fun _ => opens_text (c := ' ') (by simp) rfl _) parts h
  cases o <;> decide

theorem binds_enclosed (o : Operator) {parts : List Clause} (h : ∀ p ∈ parts, Tidy p) :
    (sql (enclosed o parts)).Binds (valuesOf parts) := by
  have hs : sql (enclosed o parts) = .text "(" :: (sql (joined o parts) ++ [.text ")"]) := by
    rw [enclosed, sql_append]
    rfl
  rw [hs]
  exact .text (by decide) ((binds_joined o h).closed (.text (by decide) .nil)
    (opens_text rfl rfl _))

theorem binds_nested (o : Operator) {parts : List Clause} (h : ∀ p ∈ parts, Tidy p) :
    (sql (nested o parts)).Binds (valuesOf parts) := by
  cases parts with
  | nil => cases o <;> exact .text (by decide) .nil
  | cons p parts => exact binds_enclosed o h

theorem binds_top {parts : List Clause} (h : ∀ p ∈ parts, Tidy p) {c : Clause}
    (hc : top parts = some c) : (sql c).Binds (valuesOf parts) := by
  unfold top at hc
  split at hc
  · contradiction
  · cases hc
    simpa [valuesOf, Tidy] using h
  · cases hc
    exact binds_enclosed .and h

end Clause

/-- Names that go into the text of some places bring no dollar sign. -/
def Site.AllPlain (sites : List Site) : Prop :=
  ∀ s ∈ sites, ∀ name ∈ s.names, Text.Plain name.toList

mutual
/-- A clause binds the values of its comparisons from left to right. -/
theorem binds_ofCondition {d : Dialect} (hd : d.Plain) {table : String} (c : Condition)
    {clause : Clause} (h : Clause.ofCondition d table c = .ok clause)
    (hn : Site.AllPlain (c.leaves.map (Site.leaf table))) :
    (Clause.sql clause).Binds ((c.leaves.map (Site.leaf table)).flatMap (Site.values d)) := by
  cases c with
  | leaf column comparer operand =>
    obtain ⟨s, hs, rfl⟩ := map_eq_ok.mp h
    have hb := binds_leaf hd hs (hn _ (by simp [Condition.leaves]))
    simpa [Clause.sql, ClauseToken.sql, Condition.leaves] using hb
  | group o children =>
    obtain ⟨parts, hp, rfl⟩ := map_eq_ok.mp h
    obtain ⟨tidy, hv⟩ := binds_ofConditions hd children hp hn
    exact hv ▸ Clause.binds_nested o tidy

theorem binds_ofConditions {d : Dialect} (hd : d.Plain) {table : String} (cs : List Condition)
    {parts : List Clause} (h : Clause.ofConditions d table cs = .ok parts)
    (hn : Site.AllPlain (Condition.sites table cs)) :
    (∀ p ∈ parts, p.Tidy) ∧
      Clause.valuesOf parts = (Condition.sites table cs).flatMap (Site.values d) := by
  cases cs with
  | nil =>
    cases h
    simp [Clause.valuesOf, Condition.sites, Condition.leavesOf]
  | cons c rest =>
    obtain ⟨part, hp, h⟩ := bind_eq_ok.mp h
    obtain ⟨parts, hps, h⟩ := bind_eq_ok.mp h
    cases h
    have hsites : Condition.sites table (c :: rest) =
        c.leaves.map (Site.leaf table) ++ Condition.sites table rest := by
      simp [Condition.sites, Condition.leavesOf]
    rw [hsites] at hn ⊢
    have hc := binds_ofCondition hd c hp fun s hs => hn s (List.mem_append_left _ hs)
    obtain ⟨tidy, hv⟩ := binds_ofConditions hd rest hps fun s hs =>
      hn s (List.mem_append_right _ hs)
    -- the values of the first tree stand before those of the others
    constructor
    · simp only [List.forall_mem_cons]
      exact ⟨by rw [Clause.Tidy, hc.params]; exact hc, tidy⟩
    · rw [List.flatMap_append, ← hv, ← hc.params]
      rfl
end

theorem Site.AllPlain.left {s t : List Site} (h : AllPlain (s ++ t)) : AllPlain s :=
  fun site hs => h site (List.mem_append_left t hs)

theorem Site.AllPlain.right {s t : List Site} (h : AllPlain (s ++ t)) : AllPlain t :=
  fun site hs => h site (List.mem_append_right s hs)

def Site.valuesOf (d : Dialect) (sites : List Site) : List Json := sites.flatMap (Site.values d)

theorem Site.valuesOf_append (d : Dialect) (s t : List Site) :
    valuesOf d (s ++ t) = valuesOf d s ++ valuesOf d t := List.flatMap_append

theorem binds_ofTerms {d : Dialect} (hd : d.Plain) {table : String} {terms : List Condition}
    {clause : Option Clause} (h : Clause.ofTerms d table terms = .ok clause)
    (hn : Site.AllPlain (Condition.sites table terms)) :
    ((clause.map Clause.sql).getD []).Binds (Site.valuesOf d (Condition.sites table terms)) := by
  obtain ⟨parts, hp, ht⟩ := map_eq_ok.mp h
  obtain ⟨tidy, hv⟩ := binds_ofConditions hd terms hp hn
  rw [Site.valuesOf, ← hv]
  cases clause with
  | none =>
    have hnil : parts = [] := by
      unfold Clause.top at ht
      split at ht <;> first | rfl | contradiction
    subst hnil
    exact .nil
  | some c => exact Clause.binds_top tidy ht

theorem binds_guarded {d : Dialect} (hd : d.Plain) {word table : String} {terms : List Condition}
    {s : Sql} (hw : Text.Plain word.toList) (h : d.guarded word table terms = .ok s)
    (hn : Site.AllPlain (Condition.sites table terms)) :
    s.Binds (Site.valuesOf d (Condition.sites table terms)) ∧ s.Opens := by
  obtain ⟨clause, hc, h⟩ := bind_eq_ok.mp h
  have hb := binds_ofTerms hd hc hn
  cases clause with
  | none =>
    cases h
    exact ⟨hb, opens_nil⟩
  | some c =>
    cases h
    exact ⟨.text (plain_concat (plain_concat (by decide) hw) (by decide)) hb,
      opens_text (c := ' ') (by simp) rfl _⟩

theorem binds_listed {names : List String} (h : ∀ name ∈ names, Text.Plain name.toList) :
    (Sql.listed names).Binds [] := by
  have hb : (Sql.listed names).Binds (names.flatMap fun _ => []) :=
    .commas names fun name hname => .text (h name hname) .nil
  have hnil : names.flatMap (fun _ => ([] : List Json)) = [] := by simp
  rwa [hnil] at hb

theorem binds_joinCondition {d : Dialect} (hd : d.Plain) {table : String} {j : Join} {s : Sql}
    (h : d.joinCondition table j = .ok s) (ht : Text.Plain table.toList)
    (hj : ∀ name ∈ j.names, Text.Plain name.toList) (hr : j.required ≠ .none)
    (hn : Site.AllPlain j.sites) : s.Binds (Site.valuesOf d j.sites) := by
  rw [Join.sites, if_neg hr] at hn ⊢
  unfold Dialect.joinCondition at h
  cases hc : j.conditions with
  | none =>
    simp only [hc] at h
    cases h
    have key (k : Option String) (hk : ∀ name ∈ k, Text.Plain name.toList) :
        Text.Plain (k.getD d.primaryKey).toList := by
      cases k with
      | none => exact hd.key
      | some name => exact hk name rfl
    have joined (name : String) (hname : Text.Plain name.toList) (k : Option String)
        (hk : ∀ name ∈ k, Text.Plain name.toList) :=
      d.naming.plain_joinKey (d.naming.plain_storageName hname) (key k hk)
    have hl := joined table ht j.localKey fun name hm => hj name (by
      rw [Option.mem_def] at hm
      simp [Join.names, hm])
    have hf := joined j.table (hj _ (by simp [Join.names])) j.foreignKey fun name hm =>
      hj name (by
        rw [Option.mem_def] at hm
        simp [Join.names, hm])
    exact .text (plain_concat (plain_concat hl (by decide)) hf) .nil
  | some terms =>
    simp only [hc] at h hn ⊢
    obtain ⟨clause, ho, h⟩ := bind_eq_ok.mp h
    have hb := binds_ofTerms hd ho hn
    cases clause with
    | none => contradiction
    | some c =>
      cases h
      exact hb

theorem binds_join {d : Dialect} (hd : d.Plain) {table : String} {j : Join} {s : Sql}
    (h : d.join table j = .ok s) (ht : Text.Plain table.toList)
    (hj : ∀ name ∈ j.names, Text.Plain name.toList) (hn : Site.AllPlain j.sites) :
    s.Binds (Site.valuesOf d j.sites) ∧ s.Opens := by
  have hhead : Text.Plain
      (" " ++ j.required.keyword ++ " " ++ d.naming.storageName j.table).toList := by
    have hk : Text.Plain j.required.keyword.toList := by
      cases j.required <;> decide
    exact plain_concat (plain_concat (plain_concat (by decide) hk) (by decide))
      (d.naming.plain_storageName (hj _ (by simp [Join.names])))
  unfold Dialect.join at h
  dsimp only at h
  split_ifs at h with hblank hr
  · cases h
    rw [Join.sites, if_pos hr]
    exact ⟨.text hhead .nil, opens_text (c := ' ') (by simp) rfl _⟩
  · obtain ⟨on, ho, h⟩ := bind_eq_ok.mp h
    cases h
    have hb := binds_joinCondition hd ho ht hj hr hn
    exact ⟨.text (plain_concat hhead (by decide)) hb, opens_text (c := ' ') (by simp) rfl _⟩

theorem binds_joins {d : Dialect} (hd : d.Plain) {table : String} {js : List Join} {s : Sql}
    (h : d.joins table js = .ok s) (ht : Text.Plain table.toList)
    (hj : ∀ j ∈ js, ∀ name ∈ j.names, Text.Plain name.toList)
    (hn : Site.AllPlain (js.flatMap Join.sites)) :
    s.Binds (Site.valuesOf d (js.flatMap Join.sites)) ∧ s.Opens := by
  induction js generalizing s with
  | nil =>
    cases h
    exact ⟨.nil, opens_nil⟩
  | cons j js ih =>
    obtain ⟨clause, hc, h⟩ := bind_eq_ok.mp h
    obtain ⟨rest, hrest, h⟩ := bind_eq_ok.mp h
    cases h
    rw [List.flatMap_cons] at hn ⊢
    have hfirst := binds_join hd hc ht (hj j List.mem_cons_self) hn.left
    have hothers := ih hrest (fun k hk => hj k (List.mem_cons_of_mem j hk)) hn.right
    rw [Site.valuesOf_append]
    exact ⟨hfirst.1.append hothers.1 hothers.2, hfirst.2.append hothers.2⟩

theorem plain_keys (d : Dialect) {ks : List String} (h : ∀ k ∈ ks, Text.Plain k.toList) :
    ∀ k ∈ d.keys ks, Text.Plain k.toList := by
  unfold Dialect.keys
  split_ifs
  · simp [Text.Plain]
  · simp only [List.forall_mem_map]
    exact fun k hk => d.naming.plain_selectKey (h k hk)

theorem binds_commaNames {word : String} (hw : Text.Plain word.toList) {names : List String}
    (h : ∀ name ∈ names, Text.Plain name.toList) :
    (Dialect.commaNames word names).Binds [] ∧ (Dialect.commaNames word names).Opens := by
  unfold Dialect.commaNames
  split_ifs
  · exact ⟨.nil, opens_nil⟩
  · exact ⟨.text (plain_concat (plain_concat (by decide) hw) (by decide)) (binds_listed h),
      opens_text (c := ' ') (by simp) rfl _⟩

theorem plain_number (n : Nat) : Text.Plain (toString n).toList := by
  rw [Nat.toString_eq_ofList_toDigits, String.toList_ofList]
  exact plain_digits n

theorem binds_limits (spec : Spec) :
    (Dialect.limits spec).Binds [] ∧ (Dialect.limits spec).Opens := by
  have nothing : Binds [] [] ∧ Opens [] := ⟨.nil, opens_nil⟩
  have word {w : String} (hw : Text.Plain w.toList) (ho : w.toList.head? = some ' ') (n : Nat) :
      Binds [.text (w ++ toString n)] [] ∧ Opens [.text (w ++ toString n)] :=
    ⟨.text (plain_concat hw (plain_number n)) .nil, opens_text (c := ' ') (by simp [ho]) rfl _⟩
  have both {s t : Sql} (hs : s.Binds [] ∧ s.Opens) (ht : t.Binds [] ∧ t.Opens) :
      (s ++ t).Binds [] ∧ (s ++ t).Opens :=
    ⟨hs.1.closed ht.1 ht.2, hs.2.append ht.2⟩
  unfold Dialect.limits
  split
  refine both ?_ ?_
  · split
    · exact word (by decide) rfl _
    · exact nothing
  · split
    · split_ifs
      · exact word (by decide) rfl _
      · exact nothing
    · exact nothing

/-- The names, keys and raw texts of a query bring no dollar sign into the text. -/
structure Spec.Plain (s : Spec) : Prop where
  table : Text.Plain s.table.toList
  select : ∀ key ∈ s.select, Text.Plain key.toList
  groupBy : ∀ key ∈ s.groupBy, Text.Plain key.toList
  sort : ∀ key ∈ s.sort, Text.Plain key.toList
  joins : ∀ j ∈ s.joins, ∀ name ∈ j.names, Text.Plain name.toList
  upsert : ∀ u ∈ s.upsert, ∀ name ∈ u.names, Text.Plain name.toList
  sites : Site.AllPlain s.sites

theorem Spec.plain_of_names {s : Spec} (h : ∀ name ∈ s.names, Text.Plain name.toList) :
    s.Plain := by
  simp only [Spec.names, List.cons_append, List.forall_mem_cons, List.forall_mem_append,
    List.forall_mem_flatMap] at h
  obtain ⟨table, ⟨⟨⟨⟨select, groupBy⟩, sort⟩, joins⟩, upsert⟩, sites⟩ := h
  exact ⟨table, select, groupBy, sort, joins,
    fun u hu => upsert u (Option.mem_toList.mpr hu), sites⟩

theorem binds_source {d : Dialect} (hd : d.Plain) {spec : Spec} {s : Sql} (hp : spec.Plain)
    (h : d.source spec = .ok s) (hn : Site.AllPlain
      (spec.joins.flatMap Join.sites ++ Condition.sites spec.table spec.conditions)) :
    s.Binds (Site.valuesOf d
      (spec.joins.flatMap Join.sites ++ Condition.sites spec.table spec.conditions)) ∧
      s.Opens := by
  obtain ⟨joins, hjoins, h⟩ := bind_eq_ok.mp h
  obtain ⟨filter, hfilter, h⟩ := bind_eq_ok.mp h
  cases h
  have hj := binds_joins hd hjoins hp.table hp.joins hn.left
  have hf := binds_guarded hd (by decide) hfilter hn.right
  have hhead : Text.Plain (" FROM " ++ d.naming.storageName spec.table).toList :=
    plain_concat (by decide) (d.naming.plain_storageName hp.table)
  rw [Site.valuesOf_append]
  exact ⟨.append (.text hhead hj.1) hf.1 hf.2, opens_text (c := ' ') (by simp) rfl _⟩

theorem binds_select {d : Dialect} (hd : d.Plain) {spec : Spec} {s : Sql} (hp : spec.Plain)
    (hc : spec.command = .select) (h : d.select spec = .ok s) :
    s.Binds (Site.valuesOf d spec.sites) := by
  obtain ⟨source, hsource, h⟩ := bind_eq_ok.mp h
  obtain ⟨groups, hgroups, h⟩ := bind_eq_ok.mp h
  cases h
  have hn := hp.sites
  have hsites : spec.sites = spec.joins.flatMap Join.sites ++
      Condition.sites spec.table spec.conditions ++ Condition.sites spec.table spec.having := by
    rw [Spec.sites, hc]
  rw [hsites] at hn ⊢
  have hlist : Binds (.text "SELECT " :: Sql.listed (d.selectList spec)) [] := by
    refine .text (by decide) (binds_listed ?_)
    unfold Dialect.selectList
    rw [List.forall_mem_append]
    refine ⟨plain_keys d hp.select, ?_⟩
    split_ifs <;> simp [Text.Plain]
  have hs := binds_source hd hp hsource hn.left
  have hh := binds_guarded hd (by decide) hgroups hn.right
  have hg := binds_commaNames (by decide : Text.Plain "GROUP BY".toList)
    (List.forall_mem_map.mpr fun key hk => d.naming.plain_column (hp.groupBy key hk))
  have ho := binds_commaNames (by decide : Text.Plain "ORDER BY".toList)
    (List.forall_mem_map.mpr fun key hk => d.naming.plain_sortKey (hp.sort key hk))
  have hl := binds_limits spec
  have hfrom := (hlist.append hs.1 hs.2).closed hg.1 hg.2
  rw [Site.valuesOf_append]
  exact ((hfrom.append hh.1 hh.2).closed ho.1 ho.2).closed hl.1 hl.2

theorem binds_returning {d : Dialect} {spec : Spec} (hp : spec.Plain) :
    (d.returning spec).Binds [] ∧ (d.returning spec).Opens :=
  ⟨.text (by decide) (binds_listed (plain_keys d hp.select)), opens_text rfl rfl _⟩

theorem binds_assigned {d : Dialect} (hd : d.Plain) (table key : String) (v : Json) :
    (d.assigned table key v).Binds ((Site.inserted table key v).values d) := by
  unfold Dialect.assigned
  simp only [Site.values]
  split_ifs
  · exact .text (by decide) .nil
  · exact binds_bind v (hd.slot table key)

theorem binds_assignment {d : Dialect} (hd : d.Plain) {table key : String} {v : Json}
    (hn : ∀ name ∈ (Site.assigned table key v).names, Text.Plain name.toList) :
    (d.assignment table key v).Binds ((Site.assigned table key v).values d) := by
  have hkey : Text.Plain (d.naming.storageName key ++ " = ").toList :=
    plain_concat (d.naming.plain_storageName (hn key (by simp [Site.names]))) (by decide)
  unfold Dialect.assignment
  simp only [Site.values]
  cases hr : Dialect.rawText? v with
  | some raw => exact .text hkey (.text (hn raw (by simp [Site.names, hr])) .nil)
  | none => exact .text hkey (binds_assigned hd table key v)

theorem binds_assignments {d : Dialect} (hd : d.Plain) {table : String} {values : Record}
    (hn : Site.AllPlain (values.map fun e => .assigned table e.1 e.2)) :
    (d.assignments table values).Binds
      (Site.valuesOf d (values.map fun e => .assigned table e.1 e.2)) := by
  rw [Site.valuesOf, List.flatMap_map]
  exact .commas values fun e he => binds_assignment hd (hn _ (List.mem_map_of_mem he))

def Dialect.conflictTarget (d : Dialect) (u : Upsert) : Sql :=
  if u.columns.isEmpty then []
  else .text " (" :: Sql.listed (u.columns.map d.naming.storageName) ++ [.text ")"]

/-- An upsert that is accepted does nothing, or makes some assignments. -/
theorem onConflict_ok {d : Dialect} {table : String} {u : Upsert} {s : Sql}
    (h : d.onConflict table u = .ok s) :
    (u.action = .nothing ∧
      s = .text " ON CONFLICT" :: d.conflictTarget u ++ [.text " DO NOTHING"]) ∨
    ∃ assignments,
      s = .text " ON CONFLICT" :: d.conflictTarget u ++ .text " DO UPDATE SET " :: assignments ∧
      ((∃ values, u.action = .update (.object values) ∧
        assignments = d.assignments table values) ∨
      ∃ columns, u.action = .merge columns ∧
        assignments = Sql.listed (columns.map d.merged)) := by
  unfold Dialect.onConflict at h
  dsimp only at h
  split at h
  · contradiction
  split at h
  next ha =>
    cases h
    exact .inl ⟨ha, rfl⟩
  next e rest ha =>
    cases h
    exact .inr ⟨_, rfl, .inl ⟨_, ha, rfl⟩⟩
  next => contradiction
  next => contradiction
  next columns _ ha =>
    cases h
    exact .inr ⟨_, rfl, .inr ⟨_, ha, rfl⟩⟩

theorem binds_onConflict {d : Dialect} (hd : d.Plain) {table : String} {u : Upsert} {s : Sql}
    (h : d.onConflict table u = .ok s) (hu : ∀ name ∈ u.names, Text.Plain name.toList)
    (hn : Site.AllPlain (u.sites table)) :
    s.Binds (Site.valuesOf d (u.sites table)) ∧ s.Opens := by
  have hcolumns : ∀ c ∈ u.columns, Text.Plain c.toList := by
    intro c hc
    refine hu c ?_
    unfold Upsert.names
    split
    · exact List.mem_append_left _ hc
    · exact hc
  have htarget : (d.conflictTarget u).Binds [] := by
    unfold Dialect.conflictTarget
    split_ifs
    · exact .nil
    · refine .text (by decide) (.closed (binds_listed ?_) (.text (by decide) .nil)
        (opens_text rfl rfl _))
      exact List.forall_mem_map.mpr fun c hc => d.naming.plain_storageName (hcolumns c hc)
  have hstart : Binds (.text " ON CONFLICT" :: d.conflictTarget u) [] := .text (by decide) htarget
  rcases onConflict_ok h with ⟨ha, rfl⟩ | ⟨assignments, rfl, ⟨values, ha, rfl⟩ | ⟨columns, ha, rfl⟩⟩
  all_goals
    simp only [Upsert.sites, ha] at hn ⊢
    refine ⟨?_, opens_text rfl rfl _⟩
  · exact hstart.closed (.text (by decide) .nil) (opens_text rfl rfl _)
  · exact hstart.append (.text (by decide) (binds_assignments hd hn)) (opens_text rfl rfl _)
  · refine hstart.closed (.text (by decide) (binds_listed ?_)) (opens_text rfl rfl _)
    refine List.forall_mem_map.mpr fun c hc => ?_
    have hplain := d.naming.plain_storageName (hu c (by simp [Upsert.names, ha, hc]))
    exact plain_concat (plain_concat hplain (by decide)) hplain

theorem binds_inserted {d : Dialect} (hd : d.Plain) {spec : Spec} (hp : spec.Plain)
    (hn : Site.AllPlain (spec.values.map fun e => .inserted spec.table e.1 e.2)) :
    (d.inserted spec).Binds
      (Site.valuesOf d (spec.values.map fun e => .inserted spec.table e.1 e.2)) := by
  have hhead : Text.Plain ("INSERT INTO " ++ d.naming.storageName spec.table).toList :=
    plain_concat (by decide) (d.naming.plain_storageName hp.table)
  unfold Dialect.inserted
  dsimp only
  split_ifs with he
  · rw [List.isEmpty_iff.mp he]
    exact .text (plain_concat hhead (by decide)) .nil
  · have hkeys : ∀ name ∈ spec.values.map fun e => d.naming.storageName e.1,
        Text.Plain name.toList :=
      List.forall_mem_map.mpr fun e he => d.naming.plain_storageName
        (hn _ (List.mem_map_of_mem he) e.1 (by simp [Site.names]))
    have hvalues := Binds.commas spec.values fun e _ => binds_assigned hd spec.table e.1 e.2
    rw [Site.valuesOf, List.flatMap_map]
    exact ((Binds.text (plain_concat hhead (by decide)) (binds_listed hkeys)).append
      (.text (by decide) hvalues) (opens_text rfl rfl _)).closed
        (.text (by decide) .nil) (opens_text rfl rfl _)

/-- An insert with what is to be done about a conflict. -/
theorem insert_ok {d : Dialect} {spec : Spec} {s : Sql} (h : d.insert spec = .ok s) :
    ∃ conflict, s = d.inserted spec ++ conflict ++ d.returning spec ∧
      ((spec.upsert = none ∧ conflict = []) ∨
      ∃ u, spec.upsert = some u ∧ d.onConflict spec.table u = .ok conflict) := by
  unfold Dialect.insert at h
  cases hu : spec.upsert with
  | none =>
    simp only [hu] at h
    cases h
    exact ⟨[], rfl, .inl ⟨rfl, rfl⟩⟩
  | some u =>
    simp only [hu] at h
    obtain ⟨conflict, hc, h⟩ := bind_eq_ok.mp h
    cases h
    exact ⟨conflict, rfl, .inr ⟨u, rfl, hc⟩⟩

theorem binds_insert {d : Dialect} (hd : d.Plain) {spec : Spec} {s : Sql} (hp : spec.Plain)
    (hc : spec.command = .insert) (h : d.insert spec = .ok s) :
    s.Binds (Site.valuesOf d spec.sites) := by
  obtain ⟨conflict, rfl, hconflict⟩ := insert_ok h
  have hn := hp.sites
  have hsites : spec.sites = spec.values.map (fun e => .inserted spec.table e.1 e.2) ++
      spec.upsert.toList.flatMap (Upsert.sites spec.table) := by
    rw [Spec.sites, hc]
  rw [hsites] at hn ⊢
  have hu : conflict.Binds
      (Site.valuesOf d (spec.upsert.toList.flatMap (Upsert.sites spec.table))) ∧
      conflict.Opens := by
    rcases hconflict with ⟨hu, rfl⟩ | ⟨u, hu, hconflict⟩
    · rw [hu]
      exact ⟨.nil, opens_nil⟩
    · have hr := hn.right
      simp only [hu, Option.toList_some, List.flatMap_singleton] at hr ⊢
      exact binds_onConflict hd hconflict (hp.upsert u hu) hr
  have hr := binds_returning (d := d) hp
  rw [Site.valuesOf_append]
  exact ((binds_inserted hd hp hn.left).append hu.1 hu.2).closed hr.1 hr.2

/-- An update that is accepted makes its assignments in the rows of its filter. -/
theorem update_ok {d : Dialect} {spec : Spec} {s : Sql} (h : d.update spec = .ok s) :
    ∃ filter, d.guarded "WHERE" spec.table spec.conditions = .ok filter ∧
      s = .text ("UPDATE " ++ d.naming.storageName spec.table ++ " SET ") ::
        d.assignments spec.table spec.values ++ filter ++ d.returning spec := by
  unfold Dialect.update at h
  split_ifs at h
  obtain ⟨filter, hfilter, h⟩ := bind_eq_ok.mp h
  cases h
  exact ⟨filter, hfilter, rfl⟩

theorem binds_update {d : Dialect} (hd : d.Plain) {spec : Spec} {s : Sql} (hp : spec.Plain)
    (hc : spec.command = .update) (h : d.update spec = .ok s) :
    s.Binds (Site.valuesOf d spec.sites) := by
  obtain ⟨filter, hfilter, rfl⟩ := update_ok h
  have hn := hp.sites
  have hsites : spec.sites = spec.values.map (fun e => .assigned spec.table e.1 e.2) ++
      Condition.sites spec.table spec.conditions := by
    rw [Spec.sites, hc]
  rw [hsites] at hn ⊢
  have hhead : Text.Plain ("UPDATE " ++ d.naming.storageName spec.table ++ " SET ").toList :=
    plain_concat (plain_concat (by decide) (d.naming.plain_storageName hp.table)) (by decide)
  have hf := binds_guarded hd (by decide) hfilter hn.right
  have hr := binds_returning (d := d) hp
  rw [Site.valuesOf_append]
  exact ((Binds.text hhead (binds_assignments hd hn.left)).append hf.1 hf.2).closed hr.1 hr.2

theorem binds_delete {d : Dialect} (hd : d.Plain) {spec : Spec} {s : Sql} (hp : spec.Plain)
    (hc : spec.command = .delete) (h : d.delete spec = .ok s) :
    s.Binds (Site.valuesOf d spec.sites) := by
  obtain ⟨filter, hfilter, h⟩ := bind_eq_ok.mp h
  cases h
  have hn := hp.sites
  have hsites : spec.sites = Condition.sites spec.table spec.conditions := by
    rw [Spec.sites, hc]
  rw [hsites] at hn ⊢
  exact .text (plain_concat (by decide) (d.naming.plain_storageName hp.table))
    (binds_guarded hd (by decide) hfilter hn).1

/-- A statement binds the values of its places in the order of the text. -/
theorem binds_statement {d : Dialect} (hd : d.Plain) {spec : Spec} {s : Sql} (hp : spec.Plain)
    (h : d.statement spec = .ok s) : s.Binds (Site.valuesOf d spec.sites) := by
  unfold Dialect.statement at h
  cases hc : spec.command with
  | select =>
    simp only [hc] at h
    exact binds_select hd hp hc h
  | insert =>
    simp only [hc] at h
    exact binds_insert hd hp hc h
  | update =>
    simp only [hc] at h
    exact binds_update hd hp hc h
  | delete =>
    simp only [hc] at h
    exact binds_delete hd hp hc h

/-- If no name, raw text or type brings a dollar sign of its own into the text, the placeholders of
a compiled query are `$1`, `$2` and so on from left to right, one for each parameter. The parameters
are the values of the places of the query, where a place has its values from itself and the dialect
alone. -/
theorem compile_numbered {spec : Spec} {config : Config} {schema : Schema} {c : Compiled}
    (plain : ∀ name ∈ spec.names ++ config.primaryKey :: schema.typeNames, '$' ∉ name.toList)
    (h : compile spec config schema = .ok c) :
    Text.placeholders c.sql.toList = (List.range' 1 c.params.length).map (Nat.toDigits 10) ∧
      c.params = spec.sites.flatMap (Site.values (config.dialect schema)) := by
  rw [List.forall_mem_append, List.forall_mem_cons] at plain
  obtain ⟨names, key, types⟩ := plain
  -- what is written while values are bound is what the pieces come to when they are numbered
  obtain ⟨s, hs, rfl⟩ := compile_eq_ok.mp h
  have hd : (config.dialect schema).Plain := ⟨key, types⟩
  have hb := binds_statement hd (Spec.plain_of_names names) hs
  constructor
  · rw [Sql.compiled, String.toList_ofList]
    exact Sql.placeholders_charsFrom hb.neat 1
  · exact hb.params

/-- A join, a filter and a condition on groups bind their values in this order. -/
theorem compile_numbered_join :
    let spec : Spec := {
      table := "users"
      joins := [{
        table := "orders"
        conditions := some [.leaf "orders.userId" .eq (.column "users.id"),
          .leaf "placedOn" .gt (.value (.string "2020-01-01"))] }]
      conditions := [.leaf "age" .eq (.value (.array [.ofInt 30, .ofInt 40]))]
      having := [.leaf "tags" .contains (.value (.array [.string "a"]))] }
    let schema : Schema := [("orders", [("placed_on", ⟨"date"⟩)])]
    let c : Compiled := {
      sql := "SELECT * FROM users INNER JOIN orders ON (orders.user_id = users.id AND " ++
        "\"placed_on\" > $1::date) WHERE \"age\" = ANY(ARRAY[$2, $3]) " ++
        "HAVING \"tags\" @> $4::jsonb"
      params := [.string "2020-01-01", .ofInt 30, .ofInt 40, .string "[\"a\"]"] }
    (∀ name ∈ spec.names ++ ({} : Config).primaryKey :: schema.typeNames, '$' ∉ name.toList) ∧
      compile spec {} schema = .ok c ∧
      Text.placeholders c.sql.toList = (List.range' 1 4).map (Nat.toDigits 10) ∧
      c.params = spec.sites.flatMap (Site.values (({} : Config).dialect schema)) := by
  intro spec schema c
  have plain : ∀ name ∈ spec.names ++ ({} : Config).primaryKey :: schema.typeNames,
      '$' ∉ name.toList := by decide
  have compiled : compile spec {} schema = .ok c := eq_ok_of_toOption (by decide +kernel)
  have numbered := compile_numbered plain compiled
  exact ⟨plain, compiled, numbered⟩

end DataAccess
