import AuditGateway.Framework.Like
import AuditGateway.Admin.Pages
import AuditGateway.Admin.UsageTrend

/-!
# Searching by name

Two searches put a text from outside into a pattern of `ILIKE`. The filter of the trace list escapes it with
`escapeILIKE` and adds `%`. `SearchUsageEmployees` puts it between two `%` as it is, so that a
special character in it is not looked for but acts in the pattern.
-/

namespace AuditGateway.Admin

open AuditGateway.Framework AuditGateway.Rollup

/-! ## The filter of the trace list -/

section

variable (F : CaseFold)

theorem likeParts_escapeILIKE (s : String) :
    likeParts (F.folded (escapeILIKE s ++ "%")) = some ((F.folded s).map .char ++ [.many]) := by
  have hmany : F.fold '%' = '%' := F.fold_special '%' (.inr (.inl rfl))
  have hescape : F.fold '\\' = '\\' := F.fold_special '\\' (.inl rfl)
  simp only [CaseFold.folded, escapeILIKE, String.toList_append, String.toList_ofList, List.map_append]
  have htail : "%".toList.map F.fold = ['%'] := by simp [hmany]
  rw [htail]
  induction s.toList with
  | nil => rfl
  | cons c s ih =>
    rw [List.flatMap_cons, List.map_append, List.append_assoc, List.map_cons, List.map_cons, List.cons_append]
    by_cases hc : c = '\\' ∨ c = '%' ∨ c = '_'
    · rw [if_pos hc, List.map_cons, List.map_cons, List.map_nil, hescape, List.cons_append, List.cons_append,
        List.nil_append, likeParts, ih, Option.map_some]
    · rw [if_neg hc, List.map_cons, List.map_nil, List.cons_append, List.nil_append,
        likeParts_cons ((F.isSpecial_fold c).not.2 hc), ih, Option.map_some]

/-- Every character of the text is looked for, and what is found begins with it. -/
theorem username_filter_literal_prefix (s v : String) (db : AdminTables) (row : String × TraceRow) :
    likeParts (F.folded (escapeILIKE s ++ "%")) = some ((F.folded s).map .char ++ [.many]) ∧
      (F.ilike v (escapeILIKE s ++ "%") = some true ↔ F.folded s <+: F.folded v) ∧
      (({ username := s } : TraceFilter).Matches
          { db with ilike := fun text pattern => F.ilike text pattern = some true } row ↔
        F.folded s <+: F.folded row.2.username) := by
  have hmatch (v : String) : F.ilike v (escapeILIKE s ++ "%") = some true ↔ F.folded s <+: F.folded v := by
    rw [CaseFold.ilike, like, likeParts_escapeILIKE, Option.map_some, Option.some.injEq, accepts_literal]
  refine ⟨likeParts_escapeILIKE F s, hmatch v, ?_⟩
  simp only [TraceFilter.Matches, true_or, true_and, decide_eq_true_eq, hmatch, and_true, Bool.false_eq_true,
    false_implies]
  -- Without a text there is no condition.
  constructor
  · rintro (rfl | h)
    · exact List.nil_prefix
    · exact h
  · exact .inr

end

/-! ## The search for employees -/

/-- A row of `audit_subjects`, without its username. -/
structure SubjectRow where
  displayName : String := ""
  department : String := ""

/-- A row of `token_identity_cache`. -/
structure IdentityRow where
  username : String
  department : String := ""

structure EmployeeTables where
  aggregates : List UsageRow
  subjects : Keyed String SubjectRow
  identities : List IdentityRow

structure UsageEmployeeSearchFilter where
  query : String
  limit : Int

structure UsageEmployeeSearchResult where
  username : String
  displayName : String
  department : String
  lastSeenAt : String

/-- The rows of the subquery `u`: a username and `last_seen_at`. -/
def EmployeeTables.employees (db : EmployeeTables) : List (String × Instant) :=
  let rows := db.aggregates.filter fun row => row.key.username ≠ ""
  (rows.map fun row => row.key.username).dedup.map fun username =>
    (username, ((rows.filter fun row => row.key.username = username).map fun row => row.key.bucketStart).max?.getD 0)

/-- A row of the joined tables. -/
structure JoinedRow where
  employee : String × Instant
  subject : Option SubjectRow
  identity : Option IdentityRow

/-- The rows of a `LEFT JOIN`. -/
def leftJoin {α : Type} (rows : List α) : List (Option α) := if rows = [] then [none] else rows.map some

def EmployeeTables.joined (db : EmployeeTables) : List JoinedRow :=
  db.employees.flatMap fun u =>
    (leftJoin (db.identities.filter fun c => c.username = u.1)).map fun c => ⟨u, db.subjects.find u.1, c⟩

/-- The display name of an employee, empty if there is none. -/
def displayNameOf (subject : Option SubjectRow) : String := (subject.map (·.displayName)).getD ""

/-- `MAX` of texts. -/
def maxText (c : Collation) (texts : List String) : Option String :=
  texts.foldl (fun best text => some (match best with
    | none => text
    | some best => if c.le best text then text else best)) none

/-- `ORDER BY u.last_seen_at DESC, u.username ASC`. -/
def employeeOrder (c : Collation) (x y : String × Instant) : Bool :=
  y.2 < x.2 || (x.2 = y.2 && c.le x.1 y.1)

section

variable (F : CaseFold) (c : Collation) (timestampText : Instant → String)

/-- A name matches the pattern or the display name does. -/
def Found (pattern username displayName : String) : Prop :=
  F.ilike username pattern = some true ∨ F.ilike displayName pattern = some true

instance (pattern username displayName : String) : Decidable (Found F pattern username displayName) :=
  inferInstanceAs (Decidable (_ ∨ _))

/-- The row of a group. -/
def resultOf (rows : List JoinedRow) (u : String × Instant) : UsageEmployeeSearchResult :=
  let group := rows.filter fun row => row.employee = u
  { username := u.1
    displayName := (maxText c (group.filterMap fun row => row.subject.map (·.displayName))).getD ""
    department := ((maxText c (group.filterMap fun row => row.subject.map (·.department))).or
      (maxText c (group.filterMap fun row => row.identity.map (·.department)))).getD ""
    lastSeenAt := timestampText u.2 }

def searchLimit (limit : Int) : Nat := (if limit ≤ 0 ∨ 8 < limit then 8 else limit).toNat

/-- `SearchUsageEmployees`, of a repository with a database. -/
def searchUsageEmployees (db : EmployeeTables) (filter : UsageEmployeeSearchFilter) :
    List UsageEmployeeSearchResult :=
  let query := "%" ++ Go.Text.trimSpace filter.query ++ "%"
  let rows := db.joined.filter fun row => Found F query row.employee.1 (displayNameOf row.subject)
  let groups := (rows.map fun row => row.employee).dedup
  ((groups.mergeSort (employeeOrder c)).take (searchLimit filter.limit)).map (resultOf c timestampText rows)

/-- The name of an employee or the display name has a text in it, in letters of either case. -/
def EmployeeTables.Contains (db : EmployeeTables) (text username : String) : Prop :=
  F.folded text <:+: F.folded username ∨
    F.folded text <:+: F.folded (displayNameOf (db.subjects.find username))

instance (db : EmployeeTables) (text username : String) : Decidable (db.Contains F text username) :=
  inferInstanceAs (Decidable (_ ∨ _))

/-- The employees that should be found. -/
def EmployeeTables.named (db : EmployeeTables) (text : String) : List String :=
  (db.employees.map Prod.fst).filter fun username => db.Contains F text username

/-- Employees have been searched literally: each that is returned should be found and is returned once, and they
are all of those, or as many as the limit allows. -/
structure SearchedLiterally (db : EmployeeTables) (filter : UsageEmployeeSearchFilter)
    (items : List UsageEmployeeSearchResult) : Prop where
  only : ∀ item ∈ items, item.username ∈ db.named F (Go.Text.trimSpace filter.query)
  nodup : (items.map (·.username)).Nodup
  all : items.length = min (searchLimit filter.limit) (db.named F (Go.Text.trimSpace filter.query)).length

end

/-! ## Who is found -/

section

variable {F : CaseFold} {c : Collation} {timestampText : Instant → String} {db : EmployeeTables}
  {filter : UsageEmployeeSearchFilter} {pattern text : String}

theorem employees_nodup : (db.employees.map Prod.fst).Nodup := by
  rw [EmployeeTables.employees, List.map_map]
  exact (List.map_id _).symm ▸ List.nodup_dedup _

theorem leftJoin_ne_nil {α : Type} (rows : List α) : leftJoin rows ≠ [] := by
  unfold leftJoin
  split
  · exact List.cons_ne_nil none []
  · rename_i h
    exact fun hnil => h (List.map_eq_nil_iff.1 hnil)

theorem mem_found {u : String × Instant} :
    (∃ row ∈ db.joined, Found F pattern row.employee.1 (displayNameOf row.subject) ∧ row.employee = u) ↔
      u ∈ db.employees ∧ Found F pattern u.1 (displayNameOf (db.subjects.find u.1)) := by
  constructor
  · rintro ⟨row, hrow, hfound, rfl⟩
    obtain ⟨u, hu, hrow⟩ := List.mem_flatMap.1 hrow
    obtain ⟨identity, -, rfl⟩ := List.mem_map.1 hrow
    exact ⟨hu, hfound⟩
  · rintro ⟨hu, hfound⟩
    obtain ⟨identity, hidentity⟩ := List.exists_mem_of_ne_nil _ (leftJoin_ne_nil (db.identities.filter _))
    exact ⟨⟨u, db.subjects.find u.1, identity⟩,
      List.mem_flatMap.2 ⟨u, hu, List.mem_map.2 ⟨identity, hidentity, rfl⟩⟩, hfound, rfl⟩

/-- The usernames that match a pattern. -/
def EmployeeTables.matching (db : EmployeeTables) (F : CaseFold) (pattern : String) : List String :=
  (db.employees.map Prod.fst).filter fun username =>
    Found F pattern username (displayNameOf (db.subjects.find username))

theorem groups_perm (F : CaseFold) (db : EmployeeTables) (pattern : String) :
    ((db.joined.filter fun row => Found F pattern row.employee.1 (displayNameOf row.subject)).map
      (·.employee)).dedup.Perm
      (db.employees.filter fun u => Found F pattern u.1 (displayNameOf (db.subjects.find u.1))) := by
  refine (List.perm_ext_iff_of_nodup (List.nodup_dedup _) (employees_nodup.of_map.filter _)).2 fun u => ?_
  rw [List.mem_dedup, List.mem_filter, decide_eq_true_eq, ← mem_found]
  simp only [List.mem_map, List.mem_filter, decide_eq_true_eq, and_assoc]

theorem search_usernames (F : CaseFold) (c : Collation) (timestampText : Instant → String) (db : EmployeeTables)
    (filter : UsageEmployeeSearchFilter) :
    ∃ order : List String, order.Perm (db.matching F ("%" ++ Go.Text.trimSpace filter.query ++ "%")) ∧
      (searchUsageEmployees F c timestampText db filter).map (·.username) =
        order.take (searchLimit filter.limit) := by
  rw [searchUsageEmployees]
  generalize "%" ++ Go.Text.trimSpace filter.query ++ "%" = pattern
  refine ⟨((((db.joined.filter fun row => Found F pattern row.employee.1 (displayNameOf row.subject)).map
    (·.employee)).dedup.mergeSort (employeeOrder c)).map Prod.fst), ?_, ?_⟩
  · rw [EmployeeTables.matching, List.filter_map]
    exact ((List.mergeSort_perm _ _).trans (groups_perm F db pattern)).map Prod.fst
  · rw [List.map_map, ← List.map_take]
    rfl

theorem mem_named {username : String} : username ∈ db.named F text ↔
    username ∈ db.employees.map Prod.fst ∧ db.Contains F text username := by
  rw [EmployeeTables.named, List.mem_filter, decide_eq_true_eq]

theorem searchedLiterally_of_matching (h : db.matching F ("%" ++ Go.Text.trimSpace filter.query ++ "%") =
    db.named F (Go.Text.trimSpace filter.query)) :
    SearchedLiterally F db filter (searchUsageEmployees F c timestampText db filter) := by
  obtain ⟨order, hperm, hitems⟩ := search_usernames F c timestampText db filter
  rw [h] at hperm
  refine ⟨fun item hitem => ?_, ?_, ?_⟩
  · have hmem : item.username ∈ order.take (searchLimit filter.limit) := hitems ▸ List.mem_map_of_mem hitem
    exact hperm.subset (List.mem_of_mem_take hmem)
  · rw [hitems]
    exact (hperm.nodup_iff.2 (employees_nodup.filter _)).sublist (List.take_sublist _ _)
  · rw [← hperm.length_eq, ← List.length_take, ← hitems, List.length_map]

end

/-! ## Special characters -/

section

variable {F : CaseFold} {x : Char} {q : List Char}

/-- A text that a pattern `%q%` matches: what is escaped in `q` without its backslash, and a character in the place of
each wildcard. A backslash at the end escapes the `%` that follows. -/
def reading (filler : Char) : List Char → List Char
  | [] => []
  | ['\\'] => ['%']
  | '\\' :: c :: q => c :: reading filler q
  | '%' :: q => filler :: reading filler q
  | '_' :: q => filler :: reading filler q
  | c :: q => c :: reading filler q

theorem not_isSpecial_of {c : Char} (hlast : c = '\\' → q = [] → False)
    (hescape : ∀ (d : Char) (rest : List Char), c = '\\' → q = d :: rest → False) (hmany : c = '%' → False)
    (hone : c = '_' → False) : ¬ IsSpecial c := by
  rintro (rfl | rfl | rfl)
  · cases q with
    | nil => exact hlast rfl rfl
    | cons d rest => exact hescape d rest rfl rfl
  · exact hmany rfl
  · exact hone rfl

theorem reading_cons {c : Char} (hc : ¬ IsSpecial c) (filler : Char) (q : List Char) :
    reading filler (c :: q) = c :: reading filler q := by
  simp only [IsSpecial, not_or] at hc
  rw [reading]
  · rintro rfl; exact absurd rfl hc.1
  · rintro _ _ rfl; exact absurd rfl hc.1
  · exact hc.2.1
  · exact hc.2.2

theorem reading_accepted (filler : Char) (q : List Char) :
    ∃ parts, likeParts (q ++ ['%']) = some parts ∧ accepts parts (reading filler q) = true := by
  induction q using reading.induct with
  | case1 => exact ⟨[.many], rfl, rfl⟩
  | case2 => exact ⟨[.char '%'], rfl, rfl⟩
  | case3 c q ih =>
    obtain ⟨parts, hparts, ih⟩ := ih
    refine ⟨.char c :: parts, by rw [List.cons_append, List.cons_append, likeParts, hparts]; rfl, ?_⟩
    exact accepts_char.2 ⟨_, rfl, ih⟩
  | case4 q ih =>
    obtain ⟨parts, hparts, ih⟩ := ih
    refine ⟨.many :: parts, by rw [List.cons_append, likeParts, hparts]; rfl, ?_⟩
    exact accepts_many.2 ⟨_, List.suffix_cons _ _, ih⟩
  | case5 q ih =>
    obtain ⟨parts, hparts, ih⟩ := ih
    refine ⟨.one :: parts, by rw [List.cons_append, likeParts, hparts]; rfl, ?_⟩
    rw [reading, accepts]
    exact ih
  | case6 c q hlast hescape hmany hone ih =>
    obtain ⟨parts, hparts, ih⟩ := ih
    have hc : ¬ IsSpecial c := not_isSpecial_of hlast hescape hmany hone
    refine ⟨.char c :: parts, by rw [List.cons_append, likeParts_cons hc, hparts]; rfl, ?_⟩
    rw [reading_cons hc]
    exact accepts_char.2 ⟨_, rfl, ih⟩

theorem length_reading_le (filler : Char) (q : List Char) : (reading filler q).length ≤ q.length := by
  fun_induction reading filler q <;> simp only [List.length_cons, List.length_nil] <;> omega

theorem reading_eq_nil {filler : Char} (h : reading filler q = []) : q = [] := by
  fun_cases reading filler q
  case case1 => rfl
  all_goals simp_all [reading]

theorem reading_eq (hx : ¬ IsSpecial x) (h : reading x q = q) : ∀ c ∈ q, ¬ IsSpecial c := by
  induction q using reading.induct with
  | case1 => exact List.forall_mem_nil _
  | case2 => cases h
  | case3 c q =>
    have hlength := congrArg List.length h
    have hle := length_reading_le x q
    simp only [reading, List.length_cons] at hlength
    omega
  | case4 q => exact absurd (.inr (.inl (List.cons.inj h).1)) hx
  | case5 q => exact absurd (.inr (.inr (List.cons.inj h).1)) hx
  | case6 c q hlast hescape hmany hone ih =>
    have hc : ¬ IsSpecial c := not_isSpecial_of hlast hescape hmany hone
    rw [reading_cons hc] at h
    exact List.forall_mem_cons.2 ⟨hc, ih (List.cons.inj h).2⟩

theorem map_reading (F : CaseFold) (filler : Char) (q : List Char) :
    (reading filler q).map F.fold = reading (F.fold filler) (q.map F.fold) := by
  have hescape : F.fold '\\' = '\\' := F.fold_special _ (.inl rfl)
  have hmany : F.fold '%' = '%' := F.fold_special _ (.inr (.inl rfl))
  have hone : F.fold '_' = '_' := F.fold_special _ (.inr (.inr rfl))
  induction q using reading.induct with
  | case1 => rfl
  | case2 => simp only [reading, List.map_cons, List.map_nil, hescape, hmany]
  | case3 c q ih => simp only [reading, List.map_cons, hescape, ih]
  | case4 q ih => simp only [reading, List.map_cons, hmany, ih]
  | case5 q ih => simp only [reading, List.map_cons, hone, ih]
  | case6 c q h1 h2 h3 h4 ih =>
    have hc : ¬ IsSpecial c := not_isSpecial_of h1 h2 h3 h4
    rw [reading_cons hc, List.map_cons, List.map_cons, reading_cons ((F.isSpecial_fold c).not.2 hc), ih]

theorem folded_query (F : CaseFold) (q : String) : F.folded ("%" ++ q ++ "%") = '%' :: (F.folded q ++ ['%']) := by
  have hmany : F.fold '%' = '%' := F.fold_special _ (.inr (.inl rfl))
  simp [CaseFold.folded, hmany]

theorem ilike_reading (F : CaseFold) (q : String) :
    F.ilike (String.ofList (reading 'a' q.toList)) ("%" ++ q ++ "%") = some true := by
  obtain ⟨parts, hparts, haccepts⟩ := reading_accepted (F.fold 'a') (F.folded q)
  rw [CaseFold.ilike, like, folded_query, likeParts, hparts, CaseFold.folded, String.toList_ofList, map_reading]
  exact congrArg some (accepts_many.2 ⟨_, List.suffix_refl _, haccepts⟩)

theorem ilike_literal (q : String) (hq : ∀ c ∈ q.toList, ¬ IsSpecial c) (v : String) :
    F.ilike v ("%" ++ q ++ "%") = some true ↔ F.folded q <:+: F.folded v := by
  have hfolded : ∀ c ∈ F.folded q, ¬ IsSpecial c := by
    intro c hc
    obtain ⟨d, hd, rfl⟩ := List.mem_map.1 hc
    exact (F.isSpecial_fold d).not.2 (hq d hd)
  rw [CaseFold.ilike, like, folded_query, likeParts, likeParts_append hfolded]
  exact Option.some_inj.trans accepts_many_literal

end

/-! ## When the search is literal -/

/-- The tables with one employee. -/
def oneEmployee (username : String) : EmployeeTables where
  aggregates := [⟨⟨0, "day", "", username, "", "", ""⟩, 0⟩]
  subjects := .empty
  identities := []

theorem employees_oneEmployee {username : String} (h : username ≠ "") :
    (oneEmployee username).employees.map Prod.fst = [username] := by
  simp [EmployeeTables.employees, oneEmployee, h]

theorem search_oneEmployee (F : CaseFold) (c : Collation) (timestampText : Instant → String)
    {username query : String} (hne : username ≠ "")
    (hmatch : F.ilike username ("%" ++ Go.Text.trimSpace query ++ "%") = some true) :
    (searchUsageEmployees F c timestampText (oneEmployee username) ⟨query, 8⟩).map (·.username) = [username] := by
  obtain ⟨order, hperm, hitems⟩ := search_usernames F c timestampText (oneEmployee username) ⟨query, 8⟩
  have hmatching : (oneEmployee username).matching F ("%" ++ Go.Text.trimSpace query ++ "%") = [username] := by
    rw [EmployeeTables.matching, employees_oneEmployee hne]
    exact List.filter_eq_self.2 fun name hname => decide_eq_true (.inl (List.mem_singleton.1 hname ▸ hmatch))
  rw [hmatching] at hperm
  rw [hitems, List.perm_singleton.1 hperm]
  rfl

theorem contains_of_searchedLiterally {F : CaseFold} {c : Collation} {timestampText : Instant → String}
    {username query : String} (hne : username ≠ "")
    (hmatch : F.ilike username ("%" ++ Go.Text.trimSpace query ++ "%") = some true)
    (h : SearchedLiterally F (oneEmployee username) ⟨query, 8⟩
      (searchUsageEmployees F c timestampText (oneEmployee username) ⟨query, 8⟩)) :
    F.folded (Go.Text.trimSpace query) <:+: F.folded username := by
  have hitems := search_oneEmployee F c timestampText hne hmatch
  obtain ⟨item, hitem, heq⟩ : ∃ item ∈ searchUsageEmployees F c timestampText (oneEmployee username) ⟨query, 8⟩,
      item.username = username := List.mem_map.1 (hitems ▸ List.mem_singleton_self username)
  obtain hname | hname := (mem_named.1 (heq ▸ h.only item hitem)).2
  · exact hname
  · -- There is no display name, and what is in it is in any text.
    have hempty : F.folded (displayNameOf ((oneEmployee username).subjects.find username)) = [] := rfl
    rw [hempty] at hname
    rw [List.infix_nil.1 hname]
    exact List.nil_infix

/-- The search is literal for every set of employees if and only if no character of the query is special. -/
theorem employee_search_literal_iff (F : CaseFold) (c : Collation) (timestampText : Instant → String)
    (query : String) :
    (∀ (db : EmployeeTables) (limit : Int),
        SearchedLiterally F db ⟨query, limit⟩ (searchUsageEmployees F c timestampText db ⟨query, limit⟩)) ↔
      ∀ char ∈ (Go.Text.trimSpace query).toList, ¬ IsSpecial char := by
  constructor
  · intro h char hchar hspecial
    have hne : String.ofList (reading 'a' (Go.Text.trimSpace query).toList) ≠ "" := by
      intro hempty
      have hnil : reading 'a' (Go.Text.trimSpace query).toList = [] := String.ofList_inj.1 hempty
      exact List.not_mem_nil (reading_eq_nil hnil ▸ hchar)
    have hwithin := contains_of_searchedLiterally hne (ilike_reading F (Go.Text.trimSpace query)) (h _ 8)
    -- The name is not longer than the query, so that it would have to be the query.
    rw [CaseFold.folded, CaseFold.folded, String.toList_ofList, map_reading] at hwithin
    have heq := hwithin.eq_of_length_le (length_reading_le _ _)
    have hfiller : ¬ IsSpecial (F.fold 'a') := (F.isSpecial_fold 'a').not.2 (by decide)
    exact reading_eq hfiller heq.symm (F.fold char) (List.mem_map_of_mem hchar) ((F.isSpecial_fold char).2 hspecial)
  · intro hq db limit
    refine searchedLiterally_of_matching (List.filter_congr fun username _ => decide_eq_decide.2 ?_)
    exact or_congr (ilike_literal _ hq _) (ilike_literal _ hq _)

/-- Folding of ASCII letters. -/
def asciiFold : CaseFold where
  fold := Char.toLower
  fold_special c h := by obtain rfl | rfl | rfl := h <;> rfl
  special_of_fold c h := by
    unfold Char.toLower at h
    split at h
    · rename_i hletter
      -- A letter in lower case is not special.
      obtain ⟨hlow, hhigh⟩ := hletter
      have hvalue : c.val + 32 = 92 ∨ c.val + 32 = 37 ∨ c.val + 32 = 95 := by
        obtain h | h | h := h
        · exact .inl (congrArg Char.val h)
        · exact .inr (.inl (congrArg Char.val h))
        · exact .inr (.inr (congrArg Char.val h))
      have hlow' : (65 : UInt32) ≤ c.val := hlow
      have hhigh' : c.val ≤ (90 : UInt32) := hhigh
      simp only [← UInt32.toNat_inj, UInt32.toNat_add, UInt32.le_iff_toNat_le, UInt32.reduceToNat]
        at hvalue hlow' hhigh'
      omega
    · exact h

/-- The order of code points. -/
def codePointOrder : Collation where
  le s t := s ≤ t
  le_total s t := by simpa using String.le_total s t
  le_trans s t u := by simpa using String.le_trans
  le_antisymm s t := by simpa using String.le_antisymm

/-- An underscore in the query finds a name that has none. -/
theorem employee_search_takes_wildcards :
    (searchUsageEmployees asciiFold codePointOrder toString (oneEmployee "alice") ⟨"a_i", 8⟩).map (·.username) =
        ["alice"] ∧
      ¬ SearchedLiterally asciiFold (oneEmployee "alice") ⟨"a_i", 8⟩
        (searchUsageEmployees asciiFold codePointOrder toString (oneEmployee "alice") ⟨"a_i", 8⟩) := by
  have hmatch : asciiFold.ilike "alice" ("%" ++ Go.Text.trimSpace "a_i" ++ "%") = some true := by decide
  refine ⟨search_oneEmployee asciiFold codePointOrder toString (by decide) hmatch, fun h => ?_⟩
  have hwithin := contains_of_searchedLiterally (by decide) hmatch h
  revert hwithin
  decide

end AuditGateway.Admin
