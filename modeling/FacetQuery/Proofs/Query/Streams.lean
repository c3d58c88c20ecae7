import FacetQuery.Query.Assembly

/-!
# `FacetQuery.Proofs.Query.Streams` — what a stream builds, whatever events it is made of

The stream of a selection is regular: each of its lines names a facet, gives values and ends. Here a stream is any
list of events: values before a name, empty names, brackets that end twice, requests that nothing opened.

*Streams behind each other.* Nothing that is committed is looked at again, so a stream does on top of a query what
it does on top of none (`Assembly.run_onto`). A stream that builds a query leaves nothing in progress, whatever the
order of its events (`build_eq_ok_iff`), so what stands behind it fares as on its own (`build_append`); only the
places of its events are counted from further up.

*The form of what is built.* The query, the request in progress and the facet in progress obey one set of rules at
every moment (`Assembly.Sound`), and each event keeps them (`Sound.step`). A value counts as held wherever it
stands. An event that gives a value adds one; a facet that changes its place takes its values along
(`count_held_move`); all else only drops values.

Main statements: `build_joined`, `form_of_build`.
-/

namespace FacetQuery

/-! ## Queries behind each other -/

namespace Query

theorem append_mk (q : Query) (fs : List Facet) (rs : List Request) :
    q ++ ⟨fs, rs⟩ = ⟨q.facets ++ fs, q.requests ++ rs⟩ := rfl

theorem append_nil (q : Query) : q ++ ⟨[], []⟩ = q := by
  rw [append_mk, List.append_nil, List.append_nil]

theorem empty_append (q : Query) : .empty ++ q = q := rfl

theorem append_assoc (p q r : Query) : p ++ q ++ r = p ++ (q ++ r) := by
  obtain ⟨fs, rs⟩ := r
  obtain ⟨gs, ss⟩ := q
  rw [append_mk, append_mk, append_mk, append_mk, List.append_assoc, List.append_assoc]

end Query

/-! ## Streams behind each other -/

namespace Assembly

variable {x : Exclusions}

/-- The state with `q` committed before everything else. -/
def onto (q : Query) (a : Assembly) : Assembly := { a with query := q ++ a.query }

@[simp] theorem query_onto (q : Query) (a : Assembly) : (a.onto q).query = q ++ a.query := rfl

@[simp] theorem settled_onto (q : Query) (a : Assembly) : (a.onto q).settled = a.settled := rfl

theorem onto_idle_empty (q : Query) : (idle .empty).onto q = idle q := by
  show idle (q ++ ⟨[], []⟩) = idle q
  rw [Query.append_nil]

/-- The end of a line commits the same, on top of whatever. -/
theorem commit_onto (q : Query) (a : Assembly) : (a.onto q).commit = a.commit.onto q := by
  obtain ⟨f, r, q'⟩ := a
  by_cases hr : r = []
  · by_cases hn : f.name = ""
    · simp [commit, onto, idle, hr, hn]
    · simp [commit, onto, idle, hr, hn, Query.append_mk]
  · simp [commit, onto, idle, hr, Query.append_mk]

/-- What is committed already changes nothing about what an event does. -/
theorem step_onto (q : Query) (a : Assembly) (e : Event) : step x (a.onto q) e = (step x a e).onto q := by
  cases e with
  | null => rfl
  | stop => exact commit_onto q a
  | requestStop =>
      by_cases hn : a.facet.name = ""
      · simp [step, onto, reset, hn]
      · simp [step, onto, reset, push, hn]
  | name n =>
      by_cases hn : n ∈ x
      · simp [step, onto, reset, hn]
      · simp [step, onto, hn]
  | value v => rfl
  | realm r => rfl
  | frequency f => rfl
  | variableStop => rfl

theorem run_onto (q : Query) (a : Assembly) (es : List Event) :
    run x (a.onto q) es = (run x a es).onto q := by
  induction es generalizing a with
  | nil => rfl
  | cons e es ih => rw [run_cons, run_cons, step_onto, ih]

end Assembly

variable {x : Exclusions}

theorem findIdx?_null_eq_none {es : List Event} (h : .null ∉ es) : es.findIdx? (· == .null) = none := by
  rw [List.findIdx?_eq_none_iff]
  intro e he
  exact beq_false_of_ne fun heq => h (heq ▸ he)

/-- The first `null` of a stream decides it, whatever stands around it. -/
theorem build_of_null {front : List Event} (h : .null ∉ front) (back : List Event) :
    build x (front ++ .null :: back) =
      .error (.nullEvent (front.length + 1) (front.length + (back.length + 1))) := by
  simp [build, List.findIdx?_append, findIdx?_null_eq_none h, List.findIdx?_cons]

/-- Without a `null`, a stream is refused only for what it leaves in progress. -/
theorem build_of_not_null {es : List Event} (h : .null ∉ es) :
    build x es = if (Assembly.run x (.idle .empty) es).settled = true
      then .ok (Assembly.run x (.idle .empty) es).query else .error .unterminated := by
  unfold build
  rw [findIdx?_null_eq_none h]

/-- A stream builds a query iff it holds no `null` and leaves nothing in progress. -/
theorem build_eq_ok_iff {es : List Event} {q : Query} :
    build x es = .ok q ↔ .null ∉ es ∧ Assembly.run x (.idle .empty) es = .idle q := by
  by_cases hnull : .null ∈ es
  · obtain ⟨front, back, rfl, hfront⟩ := List.eq_append_cons_of_mem hnull
    rw [build_of_null hfront]
    exact ⟨nofun, fun h => absurd hnull h.1⟩
  · rw [build_of_not_null hnull]
    constructor
    · intro h
      split at h
      · next hsettled =>
          refine ⟨hnull, ?_⟩
          rw [Assembly.settled_iff.mp hsettled]
          exact congrArg Assembly.idle (Except.ok.inj h)
      · exact nomatch h
    · rintro ⟨-, hrun⟩
      rw [hrun, Assembly.settled_idle]
      rfl

/-- The violation, where so many events stand in front of the stream. -/
def Violation.behind (before : Nat) : Violation → Violation
  | nullEvent k n => .nullEvent (before + k) (before + n)
  | unterminated => .unterminated

/-- Behind a stream that builds a query, a stream fares as it does on its own. -/
theorem build_append {p : List Event} {q : Query} (h : build x p = .ok q) (s : List Event) :
    build x (p ++ s) = match build x s with
      | .ok r => .ok (q ++ r)
      | .error v => .error (v.behind p.length) := by
  obtain ⟨hp, hrun⟩ := build_eq_ok_iff.mp h
  by_cases hs : .null ∈ s
  · obtain ⟨front, back, rfl, hfront⟩ := List.eq_append_cons_of_mem hs
    have hnull : .null ∉ p ++ front := fun hmem => (List.mem_append.mp hmem).elim hp hfront
    rw [← List.append_assoc, build_of_null hnull, build_of_null hfront, List.length_append, Nat.add_assoc,
      Nat.add_assoc]
    rfl
  · have hnull : .null ∉ p ++ s := fun hmem => (List.mem_append.mp hmem).elim hp hs
    have hrun : Assembly.run x (.idle .empty) (p ++ s) = (Assembly.run x (.idle .empty) s).onto q := by
      rw [Assembly.run_append, hrun, ← Assembly.onto_idle_empty, Assembly.run_onto]
    rw [build_of_not_null hnull, build_of_not_null hs, hrun, Assembly.settled_onto]
    split
    · rfl
    · rfl

/-- A stream is refused for a `null` only if it holds one, and then for its first. -/
theorem exists_first_null {es : List Event} {k n : Nat} (h : build x es = .error (.nullEvent k n)) :
    n = es.length ∧ ∃ front back, es = front ++ .null :: back ∧ .null ∉ front ∧ k = front.length + 1 := by
  by_cases hnull : .null ∈ es
  · obtain ⟨front, back, rfl, hfront⟩ := List.eq_append_cons_of_mem hnull
    rw [build_of_null hfront] at h
    cases h
    exact ⟨by simp, front, back, rfl, hfront, rfl⟩
  · rw [build_of_not_null hnull] at h
    split at h
    · exact nomatch h
    · exact nomatch h

/-- **Streams are built one behind the other.** Behind a stream that builds a query, a stream builds one iff it
    does so on its own. Then the root facets of both stand behind each other, and so do the requests. Otherwise it
    is refused for the same reason: a `null` is the first that it holds, and its place is counted on from the
    events in front. -/
theorem build_joined {p : List Event} {q : Query} (h : build x p = .ok q) (s : List Event) :
    ((∃ r, build x (p ++ s) = .ok r) ↔ ∃ r, build x s = .ok r) ∧
    (∀ r, build x s = .ok r →
      build x (p ++ s) = .ok ⟨q.facets ++ r.facets, q.requests ++ r.requests⟩) ∧
    (build x s = .error .unterminated → build x (p ++ s) = .error .unterminated) ∧
    ∀ k n, build x s = .error (.nullEvent k n) →
      build x (p ++ s) = .error (.nullEvent (p.length + k) (p.length + s.length)) ∧ n = s.length ∧
        ∃ front back, s = front ++ .null :: back ∧ .null ∉ front ∧ k = front.length + 1 := by
  rw [build_append h]
  refine ⟨?_, fun r hs => by rw [hs]; rfl, fun hs => by rw [hs]; rfl, fun k n hs => ?_⟩
  · cases build x s with
    | ok r => exact ⟨fun _ => ⟨r, rfl⟩, fun _ => ⟨_, rfl⟩⟩
    | error v => exact ⟨nofun, nofun⟩
  · obtain ⟨rfl, hfirst⟩ := exists_first_null hs
    exact ⟨by rw [hs]; rfl, rfl, hfirst⟩

/-- The first stream makes a request out of nothing; behind it one stream names what is excluded and one holds two
    `null`s. -/
theorem build_joined_stray :
    build ["n"] ([.variableStop, .requestStop, .value "v", .stop, .value "w", .stop] ++
        [.value "v", .name "n", .name "a", .stop, .frequency "f", .name "b", .stop]) =
      .ok ⟨[⟨"a", []⟩], [[⟨"variable", []⟩], [⟨"frequency", ["f"]⟩]]⟩ ∧
    build ["n"] ([.variableStop, .requestStop, .value "v", .stop, .value "w", .stop] ++
        [.realm "r", .null, .stop, .null]) = .error (.nullEvent 8 10) := by
  have hfirst : build ["n"] [.variableStop, .requestStop, .value "v", .stop, .value "w", .stop] =
      .ok ⟨[], [[⟨"variable", []⟩]]⟩ := rfl
  obtain ⟨-, hok, -, -⟩ := build_joined hfirst
    [.value "v", .name "n", .name "a", .stop, .frequency "f", .name "b", .stop]
  obtain ⟨-, -, -, hnull⟩ := build_joined hfirst [.realm "r", .null, .stop, .null]
  exact ⟨hok ⟨[⟨"a", []⟩], [[⟨"frequency", ["f"]⟩]]⟩ rfl, (hnull 2 4 rfl).1⟩

/-! ## The form of what is built -/

/-- What an event gives as a value, or as the one value of a facet. -/
def Event.given? : Event → Option String
  | value v | realm v | frequency v => some v
  | null | stop | requestStop | name _ | variableStop => none

/-- A facet that a request may hold: it has a name, and an excluded one only if that name comes from the form of
    the line. -/
def Facet.Scopes (x : Exclusions) (f : Facet) : Prop :=
  f.name ≠ "" ∧ (f.name ∈ x → f.name = "realm" ∨ f.name = "frequency" ∨ f.name = "variable")

namespace Assembly

/-- The values that are held somewhere. -/
def held (a : Assembly) : List String :=
  a.query.allFacets.flatMap (·.values) ++ a.request.flatMap (·.values) ++ a.facet.values

theorem count_held_reset (a : Assembly) (v : String) :
    a.reset.held.count v + a.facet.values.count v = a.held.count v := by
  simp only [held, reset, Facet.blank, List.count_append, List.count_nil, Nat.add_zero]

theorem count_held_push (a : Assembly) (f : Facet) (v : String) :
    (a.push f).held.count v = a.held.count v + f.values.count v := by
  simp only [held, push, List.flatMap_append, List.flatMap_cons, List.flatMap_nil, List.append_nil,
    List.count_append]
  omega

/-- Values that are moved from the facet in progress to the request in progress are held as before. -/
theorem count_held_move (a : Assembly) (name v : String) :
    (a.push ⟨name, a.facet.values⟩).reset.held.count v = a.held.count v := by
  have hreset := (a.push ⟨name, a.facet.values⟩).count_held_reset v
  have hpush := a.count_held_push ⟨name, a.facet.values⟩ v
  exact Nat.add_right_cancel (hreset.trans hpush)

theorem commit_cases (a : Assembly) :
    (a.request ≠ [] ∧ a.commit = idle ⟨a.query.facets, a.query.requests ++ [a.request]⟩) ∨
    (a.facet.name ≠ "" ∧ a.commit = idle ⟨a.query.facets ++ [a.facet], a.query.requests⟩) ∨
    a.commit = idle a.query := by
  unfold commit
  split
  · next hr => exact .inl ⟨hr, rfl⟩
  · split
    · next hn => exact .inr (.inl ⟨hn, rfl⟩)
    · exact .inr (.inr rfl)

theorem count_held_commit_le (a : Assembly) (v : String) : a.commit.held.count v ≤ a.held.count v := by
  rcases a.commit_cases with ⟨-, h⟩ | ⟨-, h⟩ | h
  all_goals
    rw [h]
    simp only [held, idle, Facet.blank, Query.allFacets, List.flatten_append, List.flatten_cons, List.flatten_nil,
      List.flatMap_append, List.flatMap_cons, List.flatMap_nil, List.append_nil, List.count_append]
    omega

/-- What is true at every moment, after so many `stop`s and with those values given. -/
structure Sound (x : Exclusions) (stops : Nat) (given : List String) (a : Assembly) : Prop where
  facets : ∀ f ∈ a.query.facets, f.name ≠ "" ∧ f.name ∉ x
  requests : ∀ r ∈ a.query.requests, r ≠ [] ∧ ∀ f ∈ r, f.Scopes x
  request : ∀ f ∈ a.request, f.Scopes x
  /-- The facet in progress has a name only if that is kept. -/
  facet : a.facet.name ≠ "" → a.facet.name ∉ x
  committed : a.query.facets.length + a.query.requests.length ≤ stops
  values : ∀ v, a.held.count v ≤ given.count v

variable {x : Exclusions} {stops : Nat} {given : List String} {a : Assembly}

theorem sound_start (x : Exclusions) : Sound x 0 [] (idle .empty) where
  facets _ hf := nomatch hf
  requests _ hr := nomatch hr
  request _ hf := nomatch hf
  facet h := absurd rfl h
  committed := Nat.le_refl 0
  values _ := Nat.le_refl 0

theorem Sound.reset (h : Sound x stops given a) : Sound x stops given a.reset where
  facets := h.facets
  requests := h.requests
  request := h.request
  facet h := absurd rfl h
  committed := h.committed
  values v := by
    have hheld := h.values v
    rw [← a.count_held_reset v] at hheld
    omega

/-- A facet of one value is given with its value. -/
theorem Sound.push_given {name v : String} (h : Sound x stops given a) (hf : Facet.Scopes x ⟨name, [v]⟩) :
    Sound x stops (given ++ [v]) (a.push ⟨name, [v]⟩) where
  facets := h.facets
  requests := h.requests
  request g hg := (List.mem_append.mp hg).elim (h.request g) fun hg => List.mem_singleton.mp hg ▸ hf
  facet := h.facet
  committed := h.committed
  values w := by
    rw [count_held_push, List.count_append]
    exact Nat.add_le_add_right (h.values w) _

/-- The facet in progress is moved, under one name or another; its values are not held twice. -/
theorem Sound.push_facet {name : String} (h : Sound x stops given a)
    (hf : Facet.Scopes x ⟨name, a.facet.values⟩) :
    Sound x stops given (a.push ⟨name, a.facet.values⟩).reset where
  facets := h.facets
  requests := h.requests
  request g hg := (List.mem_append.mp hg).elim (h.request g) fun hg => List.mem_singleton.mp hg ▸ hf
  facet h := absurd rfl h
  committed := h.committed
  values w := by
    rw [count_held_move]
    exact h.values w

theorem sound_idle {q : Query} (hfacets : ∀ f ∈ q.facets, f.name ≠ "" ∧ f.name ∉ x)
    (hrequests : ∀ r ∈ q.requests, r ≠ [] ∧ ∀ f ∈ r, f.Scopes x)
    (hcommitted : q.facets.length + q.requests.length ≤ stops)
    (hvalues : ∀ v, (idle q).held.count v ≤ given.count v) : Sound x stops given (idle q) :=
  ⟨hfacets, hrequests, nofun, fun h => absurd rfl h, hcommitted, hvalues⟩

theorem Sound.commit (h : Sound x stops given a) : Sound x (stops + 1) given a.commit := by
  have hvalues : ∀ v, a.commit.held.count v ≤ given.count v :=
    fun v => Nat.le_trans (a.count_held_commit_le v) (h.values v)
  have hcommitted := h.committed
  rcases a.commit_cases with ⟨hr, hcommit⟩ | ⟨hn, hcommit⟩ | hcommit
  · rw [hcommit] at hvalues ⊢
    refine sound_idle h.facets (fun r hmem => ?_) ?_ hvalues
    · rcases List.mem_append.mp hmem with hmem | hmem
      · exact h.requests r hmem
      · exact List.mem_singleton.mp hmem ▸ ⟨hr, h.request⟩
    · simp
      omega
  · rw [hcommit] at hvalues ⊢
    refine sound_idle (fun f hmem => ?_) h.requests ?_ hvalues
    · rcases List.mem_append.mp hmem with hmem | hmem
      · exact h.facets f hmem
      · exact List.mem_singleton.mp hmem ▸ ⟨hn, h.facet hn⟩
    · simp
      omega
  · rw [hcommit] at hvalues ⊢
    exact sound_idle h.facets h.requests (by omega) hvalues

/-- One event keeps the rules, with what it adds to the count of `stop`s and to the values given. -/
theorem Sound.step (h : Sound x stops given a) (e : Event) :
    Sound x (stops + [e].count .stop) (given ++ e.given?.toList) (step x a e) := by
  cases e with
  | null => simpa [Assembly.step, Event.given?] using h
  | stop => simpa [Assembly.step, Event.given?] using h.commit
  | requestStop =>
      by_cases hn : a.facet.name = ""
      · simpa [Assembly.step, Event.given?, hn] using h.reset
      · have hscopes : a.facet.Scopes x := ⟨hn, fun hx => absurd hx (h.facet hn)⟩
        simpa [Assembly.step, Event.given?, hn] using h.push_facet hscopes
  | name n =>
      by_cases hx : n ∈ x
      · simpa [Assembly.step, Event.given?, hx] using h.reset
      · have hname : Sound x stops given { a with facet.name := n } :=
          ⟨h.facets, h.requests, h.request, fun _ => hx, h.committed, h.values⟩
        simpa [Assembly.step, Event.given?, hx] using hname
  | value v =>
      refine ⟨h.facets, h.requests, h.request, h.facet, h.committed, fun w => ?_⟩
      have hheld := h.values w
      simp only [held, List.count_append] at hheld
      simp only [held, Assembly.step, Event.given?, Option.toList_some, List.count_append]
      omega
  | realm r => exact h.push_given ⟨by simp, fun _ => .inl rfl⟩
  | frequency f => exact h.push_given ⟨by simp, fun _ => .inr (.inl rfl)⟩
  | variableStop =>
      have hscopes : Facet.Scopes x ⟨"variable", a.facet.values⟩ := ⟨by simp, fun _ => .inr (.inr rfl)⟩
      simpa [Assembly.step, Event.given?] using h.push_facet hscopes

theorem Sound.run (h : Sound x stops given a) (es : List Event) :
    Sound x (stops + es.count .stop) (given ++ es.filterMap Event.given?) (run x a es) := by
  induction es generalizing stops given a with
  | nil => simpa using h
  | cons e es ih =>
      have hrest := ih (h.step e)
      have hgiven : (e :: es).filterMap Event.given? = e.given?.toList ++ es.filterMap Event.given? := by
        cases e <;> rfl
      rwa [Nat.add_assoc, ← List.count_append, List.singleton_append, List.append_assoc, ← hgiven] at hrest

end Assembly

/-- **Whatever a stream is made of, what it builds is well formed.** Root facets have a name, and none that is
    excluded. A request is never empty; its facets have names, and of the excluded ones only those that stand for
    the form of a line. No more is committed than there are ends of lines, and no value is held more often than it
    was given. -/
theorem form_of_build {x : Exclusions} {es : List Event} {q : Query} (h : build x es = .ok q) :
    (∀ f ∈ q.facets, f.name ≠ "" ∧ f.name ∉ x) ∧
    (∀ r ∈ q.requests, r ≠ [] ∧ ∀ f ∈ r, f.name ≠ "" ∧
      (f.name ∈ x → f.name = "realm" ∨ f.name = "frequency" ∨ f.name = "variable")) ∧
    q.facets.length + q.requests.length ≤ es.count .stop ∧
    ∀ v, (q.allFacets.flatMap (·.values)).count v ≤ (es.filterMap Event.given?).count v := by
  have hsound := (Assembly.sound_start x).run es
  rw [(build_eq_ok_iff.mp h).2, Nat.zero_add, List.nil_append] at hsound
  refine ⟨hsound.facets, hsound.requests, hsound.committed, fun v => ?_⟩
  have hvalues := hsound.values v
  simpa [Assembly.held, Assembly.idle, Facet.blank] using hvalues

/-- Values before the name, a scope that ends twice, a name that is excluded as the name of a facet only. -/
theorem form_of_build_stray :
    build ["frequency", "n"] [.value "v", .name "a", .requestStop, .requestStop, .frequency "v", .value "w", .stop,
        .name "n", .value "v", .name "b", .stop, .stop] =
      .ok ⟨[⟨"b", ["v"]⟩], [[⟨"a", ["v"]⟩, ⟨"frequency", ["v"]⟩]]⟩ ∧
    ∀ v, ["v", "v", "v"].count v ≤ ["v", "v", "w", "v"].count v := by
  have hbuild : build ["frequency", "n"] [.value "v", .name "a", .requestStop, .requestStop, .frequency "v",
      .value "w", .stop, .name "n", .value "v", .name "b", .stop, .stop] =
      .ok ⟨[⟨"b", ["v"]⟩], [[⟨"a", ["v"]⟩, ⟨"frequency", ["v"]⟩]]⟩ := rfl
  exact ⟨hbuild, (form_of_build hbuild).2.2.2⟩

end FacetQuery
