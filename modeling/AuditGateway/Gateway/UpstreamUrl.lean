import AuditGateway.Go.Url

/-!
# The URL of the upstream request

The path of the upstream request is the path of the base URL and that of the client, joined after both were decoded. The
result is written to a text and read again. So what the client wrote is sent only if it is what
`escape` would write, and a query is sent up to the first `#`.
-/

namespace AuditGateway.Gateway

open AuditGateway.Go

def joinURLPath (basePath requestPath : GoString) : GoString :=
  if basePath = [] then requestPath
  else if requestPath = [] then basePath
  else
    let baseSlash := [47].isSuffixOf basePath
    let requestSlash := [47].isPrefixOf requestPath
    match baseSlash, requestSlash with
    | true, true => basePath ++ requestPath.drop 1
    | false, false => basePath ++ 47 :: requestPath
    | _, _ => basePath ++ requestPath

/-- `upstreamURL`. The base URL is read on each request. -/
def upstreamURL (parts : UrlParts) (upstreamBaseURL : GoString) (reqURL : URL) : Option URL :=
  (parse parts upstreamBaseURL).map fun base =>
    { base with
      path := joinURLPath base.path reqURL.path
      rawQuery := reqURL.rawQuery
      forceQuery := reqURL.forceQuery }

/-- The URL of `newUpstreamRequest`, which `http.NewRequestWithContext` reads from the text. -/
def newUpstreamRequestURL (parts : UrlParts) (upstreamBaseURL : GoString) (reqURL : URL) : Option URL :=
  (upstreamURL parts upstreamBaseURL reqURL).bind fun target => parse parts target.text

/-! ## Joined paths -/

def withoutLastSlash (s : GoString) : GoString := if [47] <:+ s then s.dropLast else s

def withoutFirstSlash (s : GoString) : GoString := if [47] <+: s then s.drop 1 else s

/-- A path and another, with one slash between them. -/
def joinedByOneSlash (base path : GoString) : GoString :=
  if path = [] then base else withoutLastSlash base ++ 47 :: withoutFirstSlash path

variable {base path : GoString}

theorem withoutLastSlash_append (h : [47] <:+ base) : withoutLastSlash base ++ [47] = base := by
  obtain ⟨rest, rfl⟩ := h
  rw [withoutLastSlash, if_pos (List.suffix_append _ _), List.dropLast_concat]

theorem cons_withoutFirstSlash (h : [47] <+: path) : 47 :: withoutFirstSlash path = path := by
  rw [withoutFirstSlash, if_pos h]
  obtain ⟨rest, rfl⟩ := h
  rfl

theorem prefix_joinedByOneSlash (h : path ≠ []) : base <+: joinedByOneSlash base path := by
  rw [joinedByOneSlash, if_neg h]
  by_cases hslash : [47] <:+ base
  · exact ⟨withoutFirstSlash path, by
      conv_lhs => rw [← withoutLastSlash_append hslash]
      rw [List.append_assoc, List.singleton_append]⟩
  · rw [withoutLastSlash, if_neg hslash]
    exact List.prefix_append _ _

theorem joinURLPath_eq (hbase : base = [] → path = [] ∨ [47] <+: path) :
    joinURLPath base path = joinedByOneSlash base path := by
  by_cases hempty : base = []
  · obtain rfl | hpath := hbase hempty
    · rw [joinURLPath, hempty, if_pos rfl]
      rfl
    · obtain ⟨rest, rfl⟩ := hpath
      rw [joinURLPath, hempty, if_pos rfl]
      rfl
  · rw [joinURLPath, if_neg hempty, joinedByOneSlash]
    split
    · rfl
    · dsimp only
      cases hslash : [47].isSuffixOf base with
      | true =>
        have hsuffix : [47] <:+ base := List.isSuffixOf_iff_suffix.1 hslash
        cases hroot : [47].isPrefixOf path with
        | true =>
          have hfront : [47] <+: path := List.isPrefixOf_iff_prefix.1 hroot
          conv_lhs => rw [← withoutLastSlash_append hsuffix]
          simp [withoutFirstSlash, hfront]
        | false =>
          have hfront : ¬ [47] <+: path := fun h =>
            Bool.false_ne_true (hroot.symm.trans (List.isPrefixOf_iff_prefix.2 h))
          conv_lhs => rw [← withoutLastSlash_append hsuffix]
          simp [withoutFirstSlash, hfront]
      | false =>
        have hsuffix : ¬ [47] <:+ base := fun h =>
          Bool.false_ne_true (hslash.symm.trans (List.isSuffixOf_iff_suffix.2 h))
        rw [withoutLastSlash, if_neg hsuffix]
        cases hroot : [47].isPrefixOf path with
        | true => rw [cons_withoutFirstSlash (List.isPrefixOf_iff_prefix.1 hroot)]
        | false =>
          have hfront : ¬ [47] <+: path := fun h =>
            Bool.false_ne_true (hroot.symm.trans (List.isPrefixOf_iff_prefix.2 h))
          rw [withoutFirstSlash, if_neg hfront]

theorem escape_rooted : [47] <+: escape path ↔ [47] <+: path := by
  have hbyte : ∀ b : UInt8, (escapeByte b).head? = some 47 ↔ b = 47 := forall_byte (by decide +kernel)
  cases path with
  | nil => rfl
  | cons b path =>
    have hne : escapeByte b ≠ [] := by
      unfold escapeByte
      split <;> simp
    obtain ⟨c, rest, hc⟩ := List.exists_cons_of_ne_nil hne
    have hb := hbyte b
    rw [hc, List.head?_cons, Option.some.injEq] at hb
    show [47] <+: escapeByte b ++ escape path ↔ _
    rw [hc, List.cons_append, List.cons_prefix_cons, List.cons_prefix_cons, eq_comm, hb, eq_comm]
    exact and_congr_right fun _ => iff_of_true List.nil_prefix List.nil_prefix

theorem suffix_slash_iff (s : GoString) : [47] <:+ s ↔ s.getLast? = some 47 := by
  rw [List.getLast?_eq_some_iff]
  exact ⟨fun ⟨rest, h⟩ => ⟨rest, h.symm⟩, fun ⟨rest, h⟩ => ⟨rest, h.symm⟩⟩

theorem escape_slash : [47] <:+ escape path ↔ [47] <:+ path := by
  have hbyte : ∀ b : UInt8, (escapeByte b).getLast? = some 47 ↔ b = 47 := forall_byte (by decide +kernel)
  rw [suffix_slash_iff, suffix_slash_iff]
  induction path using List.reverseRecOn with
  | nil => rfl
  | append_singleton path b _ =>
    have hne : escapeByte b ≠ [] := by
      unfold escapeByte
      split <;> simp
    rw [escape_append, show escape [b] = escapeByte b from List.append_nil _, List.getLast?_append_of_ne_nil _
      hne, hbyte]
    simp

theorem escape_eq_nil (h : escape path = []) : path = [] := by
  have hread := unescape_escape path
  rw [h] at hread
  exact (Option.some.inj hread).symm

theorem escape_joinedByOneSlash (base path : GoString) :
    escape (joinedByOneSlash base path) = joinedByOneSlash (escape base) (escape path) := by
  have hbase : escape (withoutLastSlash base) = withoutLastSlash (escape base) := by
    by_cases h : [47] <:+ base
    · have hparts := congrArg escape (withoutLastSlash_append h)
      rw [escape_append] at hparts
      have hparts' := withoutLastSlash_append (escape_slash.2 h)
      exact List.append_cancel_right (hparts.trans hparts'.symm)
    · rw [withoutLastSlash, withoutLastSlash, if_neg h, if_neg fun h' => h (escape_slash.1 h')]
  have hpath : escape (withoutFirstSlash path) = withoutFirstSlash (escape path) := by
    by_cases h : [47] <+: path
    · have hparts : 47 :: escape (withoutFirstSlash path) = escape path :=
        congrArg escape (cons_withoutFirstSlash h)
      exact (List.cons.inj (hparts.trans (cons_withoutFirstSlash (escape_rooted.2 h)).symm)).2
    · rw [withoutFirstSlash, withoutFirstSlash, if_neg h, if_neg fun h' => h (escape_rooted.1 h')]
  by_cases hne : path = []
  · subst hne
    rfl
  · rw [joinedByOneSlash, joinedByOneSlash, if_neg hne, if_neg fun h => hne (escape_eq_nil h), escape_append, ← hbase,
      ← hpath]
    rfl

/-! ## Paths that were read -/

theorem unescape_eq_nil (h : unescape path = some []) : path = [] := by
  cases path using unescape.fun_cases with
  | case1 high low s =>
    rw [unescape] at h
    simp [Option.bind_eq_some_iff] at h
  | case2 s hs =>
    rw [unescape] at h
    · cases h
    · exact hs
  | case3 b s hlong hshort =>
    rw [unescape_cons fun hb => hshort hb] at h
    simp at h
  | case4 => rfl

theorem eq_of_prefix_of_unescape {s t x : GoString} (hs : unescape s = some x) (ht : unescape t = some x)
    (h : s <+: t) :
    s = t := by
  obtain ⟨rest, rfl⟩ := h
  rw [unescape_append hs] at ht
  obtain ⟨y, hy, hxy⟩ := Option.map_eq_some_iff.1 ht
  rw [List.append_right_eq_self.1 hxy] at hy
  rw [unescape_eq_nil hy, List.append_nil]

variable {u : URL}

theorem written_of_pathRead (h : PathRead u) : ∃ written, unescape written = some u.path ∧
    (written = [] ∨ [47] <+: written) ∧
    (u.rawPath = [] ∧ written = escape u.path ∨ u.rawPath = written ∧ written ≠ escape u.path) := by
  obtain ⟨written, hrooted, hset⟩ := h
  obtain ⟨path, hpath, heq⟩ := Option.map_eq_some_iff.1 hset
  obtain ⟨rfl, hraw⟩ := Prod.mk.inj heq
  refine ⟨written, hpath, hrooted, ?_⟩
  split at hraw
  · exact .inl ⟨hraw.symm, by assumption⟩
  · exact .inr ⟨hraw.symm, by assumption⟩

theorem rooted_of_pathRead (h : PathRead u) :
    u.path = [] ∧ u.rawPath = [] ∧ u.escapedPath = [] ∨ [47] <+: u.path ∧ [47] <+: u.escapedPath := by
  obtain ⟨written, hread, rfl | ⟨rest, rfl⟩, hraw⟩ := written_of_pathRead h
  · have hpath : u.path = [] := (Option.some.inj hread).symm
    have hrawPath : u.rawPath = [] := hraw.elim And.left fun h => absurd (by rw [hpath]; rfl) h.2
    refine .inl ⟨hpath, hrawPath, ?_⟩
    rw [URL.escapedPath, if_neg (by simp [hrawPath]), hpath]
    rfl
  · have hpath : [47] <+: u.path := by
      rw [List.singleton_append, unescape_cons (by decide)] at hread
      obtain ⟨x, -, hx⟩ := Option.map_eq_some_iff.1 hread
      exact ⟨x, hx⟩
    refine .inr ⟨hpath, ?_⟩
    unfold URL.escapedPath
    split
    · obtain ⟨hraw, -⟩ | ⟨hraw, -⟩ := hraw
      · exact absurd hraw (by tauto)
      · rw [hraw]
        exact List.prefix_append _ _
    · split
      · rename_i hstar
        rw [hstar] at hpath
        exact absurd hpath (by decide)
      · exact escape_rooted.2 hpath

/-- A URL that the server has read from a request. -/
def RequestPath (u : URL) : Prop := PathRead u ∨ u.path = [42] ∧ u.rawPath = []

/-- When the encoded paths are sent as they were received: there is nothing to join, or both paths were written as
`escape` writes them. -/
def PathKept (base client : URL) : Prop :=
  client.path = [] ∨ base.path = [] ∧ client.path = [42] ∨ [47] <:+ base.escapedPath ∧ client.path = [47] ∨
    base.escapedPath = escape base.path ∧ client.escapedPath = escape client.path

section

variable {base client target : URL}

theorem escapedPath_cases (hpath : base.path ≠ [42]) : base.escapedPath = escape base.path ∨
    base.rawPath ≠ [] ∧ validEncoded base.rawPath = true ∧ unescape base.rawPath = some base.path ∧
      base.escapedPath = base.rawPath := by
  rw [URL.escapedPath]
  split
  · rename_i h
    exact .inr ⟨h.1, h.2.1, h.2.2, rfl⟩
  · exact .inl rfl

theorem joined_eq_iff (hclient : RequestPath client) (hne : client.path ≠ []) :
    joinedByOneSlash (escape base.path) (escape client.path) = joinedByOneSlash base.escapedPath client.escapedPath ↔
      base.escapedPath = escape base.path ∧ client.escapedPath = escape client.path := by
  have hne' : client.escapedPath ≠ [] := fun h => hne (by
    have hread := unescape_escapedPath client
    rw [h] at hread
    exact (Option.some.inj hread).symm)
  have hne'' : escape client.path ≠ [] := fun h => hne (escape_eq_nil h)
  constructor
  · intro heq
    have hsame : base.escapedPath = escape base.path := by
      have hfront : escape base.path <+: joinedByOneSlash base.escapedPath client.escapedPath :=
        heq ▸ prefix_joinedByOneSlash hne''
      obtain h | h := List.prefix_or_prefix_of_prefix hfront (prefix_joinedByOneSlash hne')
      · exact (eq_of_prefix_of_unescape (unescape_escape _) (unescape_escapedPath base) h).symm
      · exact eq_of_prefix_of_unescape (unescape_escapedPath base) (unescape_escape _) h
    refine ⟨hsame, ?_⟩
    rw [hsame, joinedByOneSlash, joinedByOneSlash, if_neg hne'', if_neg hne'] at heq
    have htail := (List.cons.inj (List.append_cancel_left heq)).2
    obtain hread | ⟨hstar, hraw⟩ := hclient
    · obtain ⟨hnil, -⟩ | ⟨hpath, hescaped⟩ := rooted_of_pathRead hread
      · exact absurd hnil hne
      · rw [← cons_withoutFirstSlash hescaped, ← cons_withoutFirstSlash (escape_rooted.2 hpath), htail]
    · have hescaped : client.escapedPath = [42] := by
        rw [URL.escapedPath, if_neg (by simp [hraw]), if_pos hstar]
      rw [hstar, hescaped] at htail
      exact absurd htail (by decide)
  · rintro ⟨h, h'⟩
    rw [h, h']

theorem hostPath_of_rooted (h : u.escapedPath = [] ∨ [47] <+: u.escapedPath) : u.hostPath = u.escapedPath :=
  if_neg (by tauto)

theorem slash_of_unescape {s x : GoString} (h : unescape (s ++ [47]) = some x) : [47] <:+ x := by
  induction s using unescape.induct generalizing x with
  | case1 high low s ih =>
    rw [List.cons_append, List.cons_append, List.cons_append, unescape] at h
    simp only [Option.bind_eq_bind, Option.bind_eq_some_iff, Option.pure_def, Option.some.injEq] at h
    obtain ⟨u, -, v, -, y, hy, rfl⟩ := h
    exact (ih hy).trans (List.suffix_cons _ _)
  | case2 s hs =>
    cases s with
    | nil =>
      have hnone : unescape ([37] ++ [47]) = none := by decide
      rw [hnone] at h
      cases h
    | cons a s =>
      cases s with
      | nil =>
        have hlast : unhex 47 = none := by decide
        rw [List.cons_append, List.cons_append, List.nil_append, unescape, hlast] at h
        cases hhigh : unhex a <;> simp [hhigh] at h
      | cons low s => exact absurd rfl (hs a low s)
  | case3 b s hlong hshort ih =>
    rw [List.cons_append, unescape_cons fun hb => hshort hb] at h
    obtain ⟨y, hy, rfl⟩ := Option.map_eq_some_iff.1 h
    exact (ih hy).trans (List.suffix_cons _ _)
  | case4 =>
    have hslash : unescape ([] ++ [47]) = some [47] := by decide
    rw [← Option.some.inj (hslash.symm.trans h)]

theorem joined_eq_self_iff {base path : GoString} (hne : path ≠ []) :
    joinedByOneSlash base path = base ↔ [47] <:+ base ∧ path = [47] := by
  rw [joinedByOneSlash, if_neg hne]
  constructor
  · intro heq
    by_cases hslash : [47] <:+ base
    · have hparts : withoutLastSlash base ++ 47 :: withoutFirstSlash path = withoutLastSlash base ++ [47] :=
        heq.trans (withoutLastSlash_append hslash).symm
      have hnil : withoutFirstSlash path = [] := (List.cons.inj (List.append_cancel_left hparts)).2
      by_cases hroot : [47] <+: path
      · exact ⟨hslash, by rw [← cons_withoutFirstSlash hroot, hnil]⟩
      · rw [withoutFirstSlash, if_neg hroot] at hnil
        exact absurd hnil hne
    · rw [withoutLastSlash, if_neg hslash] at heq
      exact absurd (List.append_right_eq_self.1 heq) (List.cons_ne_nil _ _)
  · rintro ⟨hslash, rfl⟩
    exact withoutLastSlash_append hslash

theorem escapedPath_star (hclient : RequestPath client) (h : client.path = [42]) : client.escapedPath = [42] := by
  obtain hread | ⟨-, hraw⟩ := hclient
  · obtain ⟨hnil, -⟩ | ⟨hroot, -⟩ := rooted_of_pathRead hread
    · rw [h] at hnil
      cases hnil
    · rw [h] at hroot
      exact absurd hroot (by decide)
  · rw [URL.escapedPath, if_neg (by simp [hraw]), if_pos h]

theorem rooted_of_requestPath (hclient : RequestPath client) (hne : client.path ≠ []) (hstar : client.path ≠ [42]) :
    [47] <+: client.path ∧ [47] <+: client.escapedPath := by
  obtain hread | ⟨hstar', -⟩ := hclient
  · exact (rooted_of_pathRead hread).resolve_left fun h => hne h.1
  · exact absurd hstar' hstar

theorem path_ne_star (hbase : PathRead base) : base.path ≠ [42] := by
  intro h
  obtain ⟨hnil, -⟩ | ⟨hroot, -⟩ := rooted_of_pathRead hbase
  · rw [h] at hnil
    cases hnil
  · rw [h] at hroot
    exact absurd hroot (by decide)

theorem unescape_rawPath (hbase : PathRead base) (hne : base.rawPath ≠ []) :
    unescape base.rawPath = some base.path ∧ base.rawPath ≠ escape base.path := by
  obtain ⟨written, hread, -, ⟨hnil, -⟩ | ⟨hraw, hdiff⟩⟩ := written_of_pathRead hbase
  · exact absurd hnil hne
  · rw [hraw]
    exact ⟨hread, hdiff⟩

theorem escapedPath_slash (hclient : RequestPath client) (h : client.path = [47]) : client.escapedPath = [47] := by
  obtain ⟨-, hrooted⟩ := rooted_of_requestPath hclient (by simp [h]) (by simp [h])
  have hread := unescape_escapedPath client
  rw [h] at hread
  exact (eq_of_prefix_of_unescape (by decide) hread hrooted).symm

section

variable (hbase : PathRead base) (hclient : RequestPath client)
  (hpath : target.path = joinURLPath base.path client.path) (hraw : target.rawPath = base.rawPath)

include hbase hclient hpath hraw

theorem hostPath_of_nil (hnil : client.path = []) :
    target.hostPath = joinedByOneSlash base.escapedPath client.escapedPath := by
  have hsame : target.path = base.path := by
    rw [hpath, hnil, joinURLPath]
    split
    · rename_i h
      exact h.symm
    · rfl
  have hescaped : target.escapedPath = base.escapedPath := by rw [URL.escapedPath, URL.escapedPath, hsame, hraw]
  have hempty : client.escapedPath = [] := by
    obtain hread | ⟨hstar, -⟩ := hclient
    · obtain ⟨-, -, hescaped⟩ | ⟨hroot, -⟩ := rooted_of_pathRead hread
      · exact hescaped
      · rw [hnil] at hroot
        exact absurd hroot (by decide)
    · rw [hnil] at hstar
      cases hstar
  rw [hostPath_of_rooted (by rw [hescaped]; exact (rooted_of_pathRead hbase).imp (·.2.2) (·.2)), hescaped, hempty]
  rfl

theorem hostPath_of_star (hempty : base.path = []) (hstar : client.path = [42]) :
    target.hostPath = joinedByOneSlash base.escapedPath client.escapedPath := by
  obtain ⟨-, hrawPath, hescaped⟩ := (rooted_of_pathRead hbase).resolve_right fun h => by
    rw [hempty] at h
    exact absurd h.1 (by decide)
  have htarget : target.escapedPath = [42] := by
    rw [URL.escapedPath, hraw, hrawPath, if_neg (by simp), if_pos]
    rw [hpath, hempty, hstar]
    rfl
  rw [URL.hostPath, htarget, hescaped, escapedPath_star hclient hstar]
  decide

theorem hostPath_eq_joined_iff :
    target.hostPath = joinedByOneSlash base.escapedPath client.escapedPath ↔ PathKept base client := by
  by_cases hnil : client.path = []
  · exact iff_of_true (hostPath_of_nil hbase hclient hpath hraw hnil) (.inl hnil)
  by_cases hstar : base.path = [] ∧ client.path = [42]
  · exact iff_of_true (hostPath_of_star hbase hclient hpath hraw hstar.1 hstar.2) (.inr (.inl hstar))
  have hjoin : target.path = joinedByOneSlash base.path client.path := by
    rw [hpath, joinURLPath_eq fun hempty => .inr (rooted_of_requestPath hclient hnil fun h => hstar ⟨hempty, h⟩).1]
  have hrooted : [47] <+: target.path := by
    rw [hjoin]
    obtain ⟨hempty, -⟩ | ⟨hroot, -⟩ := rooted_of_pathRead hbase
    · rw [hempty, joinedByOneSlash, if_neg hnil]
      exact List.prefix_append _ _
    · exact hroot.trans (prefix_joinedByOneSlash hnil)
  by_cases hkept : base.rawPath ≠ [] ∧ validEncoded base.rawPath = true ∧ unescape base.rawPath = some target.path
  · -- the encoding of the base path is kept, and so nothing was added to it
    obtain ⟨hread, hdiff⟩ := unescape_rawPath hbase hkept.1
    have hsame : target.path = base.path := Option.some.inj (hkept.2.2.symm.trans hread)
    obtain ⟨-, hslash⟩ := (joined_eq_self_iff hnil).1 (hjoin.symm.trans hsame)
    have hescaped : base.escapedPath = base.rawPath := if_pos ⟨hkept.1, hkept.2.1, hread⟩
    have htarget : target.escapedPath = base.rawPath := by rw [URL.escapedPath, hraw, if_pos hkept]
    have hrootedRaw : [47] <+: target.escapedPath := by
      rw [htarget, ← hescaped]
      exact ((rooted_of_pathRead hbase).resolve_left fun h => hkept.1 h.2.1).2
    rw [hostPath_of_rooted (.inr hrootedRaw), htarget, hescaped, escapedPath_slash hclient hslash, eq_comm,
      joined_eq_self_iff (List.cons_ne_nil _ _), PathKept, hescaped]
    constructor
    · exact fun h => .inr (.inr (.inl ⟨h.1, hslash⟩))
    · rintro (h | h | h | h)
      · exact absurd h hnil
      · exact absurd h hstar
      · exact ⟨h.1, rfl⟩
      · exact absurd h.1 hdiff
  · have htarget : target.escapedPath = escape target.path := by
      rw [URL.escapedPath, hraw, if_neg hkept, if_neg]
      intro h
      rw [h] at hrooted
      exact absurd hrooted (by decide)
    rw [hostPath_of_rooted (.inr (by rw [htarget]; exact escape_rooted.2 hrooted)), htarget, hjoin,
      escape_joinedByOneSlash, joined_eq_iff hclient hnil]
    constructor
    · exact fun h => .inr (.inr (.inr h))
    · rintro (h | h | ⟨hslash, h⟩ | h)
      · exact absurd h hnil
      · exact absurd h hstar
      · refine ⟨?_, by rw [escapedPath_slash hclient h, h]; rfl⟩
        -- otherwise the base path would end in a slash, and its encoding would have been kept
        obtain hsame | ⟨hne, hvalid, hread, hescaped⟩ := escapedPath_cases (path_ne_star hbase)
        · exact hsame
        · rw [hescaped] at hslash
          obtain ⟨rest, hrest⟩ := hslash
          have hend : [47] <:+ base.path := slash_of_unescape (hrest.symm ▸ hread)
          have hsame : target.path = base.path := hjoin.trans ((joined_eq_self_iff hnil).2 ⟨hend, h⟩)
          exact absurd ⟨hne, hvalid, hsame ▸ hread⟩ hkept
      · exact h

end

end

/-! ## What is sent -/

/-- The upstream request has the encoded path of the base URL, a slash and the encoded path of the client, and the query
of the client, if and only if the paths are kept and there is no `#` in the query. -/
theorem forwarded_iff (parts : UrlParts) (upstreamBaseURL requestURI : GoString) (base client : URL)
    (hbase : parse parts upstreamBaseURL = some base) (hclient : parseRequestURI parts requestURI = some client) :
    (∃ upstream, newUpstreamRequestURL parts upstreamBaseURL client = some upstream ∧
      upstream.escapedPath = joinedByOneSlash base.escapedPath client.escapedPath ∧
      upstream.rawQuery = client.rawQuery) ↔ PathKept base client ∧ 35 ∉ client.rawQuery := by
  obtain ⟨habsolute, hread⟩ := of_parse hbase
  obtain ⟨hrequest, hctl⟩ := of_parseRequestURI hclient
  obtain ⟨target, htarget⟩ : ∃ target, target = { base with
      path := joinURLPath base.path client.path
      rawQuery := client.rawQuery
      forceQuery := client.forceQuery } := ⟨_, rfl⟩
  have hpath : target.path = joinURLPath base.path client.path := by rw [htarget]
  have hraw : target.rawPath = base.rawPath := by rw [htarget]
  have hquery : target.rawQuery = client.rawQuery := by rw [htarget]
  have habsolute' : target.Absolute parts := by
    rw [htarget]
    exact ⟨habsolute.scheme, habsolute.authority, habsolute.fragment⟩
  have hsent : newUpstreamRequestURL parts upstreamBaseURL client = parse parts target.text := by
    rw [newUpstreamRequestURL, upstreamURL, hbase, htarget]
    rfl
  rw [hsent, ← hostPath_eq_joined_iff hread hrequest hpath hraw, ← hquery]
  rw [← hquery] at hctl
  by_cases hhash : 35 ∈ target.rawQuery
  · refine iff_of_false ?_ fun h => h.2 hhash
    rintro ⟨upstream, hparse, -, hsame⟩
    exact rawQuery_of_hash habsolute' hctl hhash hparse hsame
  · obtain ⟨upstream, hparse, hwritten, hsame⟩ := parse_text habsolute' hctl hhash
    rw [← hwritten]
    constructor
    · rintro ⟨upstream', hparse', hjoined, -⟩
      rw [Option.some.inj (hparse.symm.trans hparse')]
      exact ⟨hjoined, hhash⟩
    · exact fun h => ⟨upstream, hparse, h.1, hsame⟩

def plainParts : UrlParts where
  authority text :=
    if text ≠ [] ∧ 47 ∉ text ∧ 63 ∉ text ∧ 35 ∉ text ∧ containsCTLByte text = false then some text else none
  fragment text := some text
  authority_ne text printed h := by
    split at h
    · rename_i hok
      exact Option.some.inj h ▸ hok.1
    · cases h
  authority_bytes text printed h := by
    split at h
    · rename_i hok
      exact Option.some.inj h ▸ hok.2
    · cases h
  authority_again text printed h := by
    split at h
    · rename_i hok
      obtain rfl := Option.some.inj h
      exact if_pos hok
    · cases h
  fragment_again _ _ _ := rfl

/-- A path and a query that are sent as they were received. -/
theorem forwarded_iff_chat : ∃ upstream, newUpstreamRequestURL plainParts (ascii "http://up/v1/")
    ⟨[], [], ascii "/chat", [], false, ascii "x=%20", []⟩ = some upstream ∧
      upstream.escapedPath = ascii "/v1/chat" ∧ upstream.rawQuery = ascii "x=%20" :=
  (forwarded_iff plainParts (ascii "http://up/v1/") (ascii "/chat?x=%20")
    ⟨ascii "http", ascii "up", ascii "/v1/", [], false, [], []⟩ _ (by decide +kernel) (by decide +kernel)).2
    ⟨.inr (.inr (.inr (by decide +kernel))), by decide +kernel⟩

/-- An encoded slash is sent decoded, an exclamation mark is sent encoded, and a query ends at `#`. -/
theorem path_not_forwarded :
    ((parseRequestURI plainParts (ascii "/files/a%2Fb")).bind fun client =>
      (newUpstreamRequestURL plainParts (ascii "http://up/v1") client).map fun upstream =>
        (client.escapedPath, upstream.escapedPath)) = some (ascii "/files/a%2Fb", ascii "/v1/files/a/b") ∧
    ((parseRequestURI plainParts (ascii "/files/a!")).bind fun client =>
      (newUpstreamRequestURL plainParts (ascii "http://up/v1") client).map fun upstream =>
        (client.escapedPath, upstream.escapedPath)) = some (ascii "/files/a!", ascii "/v1/files/a%21") ∧
    ((parseRequestURI plainParts (ascii "/files?x=1#y")).bind fun client =>
      (newUpstreamRequestURL plainParts (ascii "http://up/v1") client).map fun upstream =>
        (client.rawQuery, upstream.rawQuery)) = some (ascii "x=1#y", ascii "x=1") := by
  refine ⟨?_, ?_, ?_⟩ <;> decide +kernel

end AuditGateway.Gateway
