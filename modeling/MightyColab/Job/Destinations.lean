import MightyColab.Job.NetPolicy

/-!
# Where requests go

Every connection goes to the one address that the check of the first URL passed, which
is public. Redirects are checked and then followed there too, so they reach the host they
name exactly when it is the first one.
-/

namespace MightyColab
namespace NetPolicy

open Lib

/-!
## What the check passes
-/

theorem requirePublic_cases (host : String) (addresses : List String) (s : Net) :
    (exists e, requirePublic host addresses s = (.raised e, s)) ∨
      addresses ≠ [] ∧ (forall ip, ip ∈ addresses -> addressIsPublic ip = true) ∧
        requirePublic host addresses s =
          (.ok addresses, { s with checked := (host, addresses) :: s.checked }) := by
  unfold requirePublic
  split
  · exact Or.inl ⟨_, rfl⟩
  · rename_i hnonempty
    split
    · exact Or.inl ⟨_, rfl⟩
    · rename_i hblocked
      refine Or.inr ⟨hnonempty, fun ip hip => ?_, rfl⟩
      have hnone : addresses.filter (fun ip => !addressIsPublic ip) = [] := by
        simpa using hblocked
      have hpublic := List.filter_eq_nil_iff.mp hnone ip hip
      simpa using hpublic

theorem addressesOf_cases (dns : Resolver) (literal : String) (port : Nat) (s : Net) :
    exists lookups,
      addressesOf dns literal port s = (.raised .lookup, { s with lookups }) ∨
      exists addresses, addressesOf dns literal port s = (.ok addresses, { s with lookups }) := by
  unfold addressesOf
  split
  · exact ⟨s.lookups, Or.inr ⟨_, rfl⟩⟩
  · cases hdns : dns s.lookups literal port with
    | some addresses =>
        refine ⟨s.lookups + 1, Or.inr ⟨addresses, ?_⟩⟩
        simp [getaddrinfo, Prog.bind_run, hdns]
    | none =>
        refine ⟨s.lookups + 1, Or.inl ?_⟩
        simp [getaddrinfo, Prog.bind_run, hdns]

theorem resolvePublicAddresses_cases (dns : Resolver) (host : String) (port : Nat)
    (s : Net) :
    exists lookups,
      (exists e, resolvePublicAddresses dns host port s = (.raised e, { s with lookups })) ∨
      exists addresses,
        addresses ≠ [] ∧ (forall ip, ip ∈ addresses -> addressIsPublic ip = true) ∧
        resolvePublicAddresses dns host port s =
          (.ok addresses, { s with lookups, checked := (host, addresses) :: s.checked }) := by
  unfold resolvePublicAddresses
  rcases addressesOf_cases dns (literalHost host) port s with ⟨lookups, hrun | ⟨addresses, hrun⟩⟩
  · exact ⟨lookups, Or.inl ⟨_, Prog.bind_run_raised hrun⟩⟩
  · rw [Prog.bind_run_ok hrun]
    rcases requirePublic_cases host addresses { s with lookups } with hraise | hpass
    · exact ⟨lookups, Or.inl hraise⟩
    · exact ⟨lookups, Or.inr ⟨addresses, hpass⟩⟩

def Url.Names (url : Url) (host : String) : Prop :=
  url.scheme = "https" ∧ exists netloc, url.netloc = some netloc ∧ netloc.hostname = host

/-- How a check of a URL ends: it raises, or passes with the first of its host's
addresses, all of them public. -/
inductive Checks (url : Option Url) (s : Net) : Outcome Raised Destination × Net -> Prop
  | raised (e : Raised) (lookups : Nat) : Checks url s (.raised e, { s with lookups })
  | passed (parts : Url) (host ip : String) (port lookups : Nat) (addresses : List String)
      (hurl : url = some parts) (hnames : parts.Names host) (hmem : ip ∈ addresses)
      (hpublic : addressIsPublic ip = true) :
      Checks url s (.ok { host, ip, port },
        { s with lookups, checked := (host, addresses) :: s.checked })

theorem portOf_cases (netloc : Netloc) (s : Net) :
    portOf netloc s = (.raised .valueError, s) ∨ exists port, portOf netloc s = (.ok port, s) := by
  unfold portOf
  cases netloc.port with
  | none => exact Or.inr ⟨_, rfl⟩
  | number n => exact Or.inr ⟨_, rfl⟩
  | invalid => exact Or.inl rfl

theorem checkUrl_cases (dns : Resolver) (url : Option Url) (s : Net) :
    Checks url s (checkUrl dns url s) := by
  unfold checkUrl
  split
  · exact .raised _ s.lookups
  · rename_i parts
    split
    · exact .raised _ s.lookups
    · rename_i hscheme
      cases hnetloc : parts.netloc with
      | none => exact .raised _ s.lookups
      | some netloc =>
          simp only
          split
          · exact .raised _ s.lookups
          · rcases portOf_cases netloc s with hport | ⟨port, hport⟩
            · rw [Prog.bind_run_raised hport]
              exact .raised _ s.lookups
            · rw [Prog.bind_run_ok hport]
              rcases resolvePublicAddresses_cases dns netloc.hostname port s with
                ⟨lookups, ⟨e, hresolve⟩ | ⟨addresses, hnonempty, hpublic, hresolve⟩⟩
              · rw [Prog.bind_run_raised hresolve]
                exact .raised e lookups
              · rw [Prog.bind_run_ok hresolve]
                cases addresses with
                | nil => exact absurd rfl hnonempty
                | cons ip others =>
                    have hmem : ip ∈ ip :: others := List.mem_cons_self
                    exact .passed parts netloc.hostname ip port lookups (ip :: others) rfl
                      ⟨by simpa using hscheme, netloc, hnetloc, rfl⟩ hmem
                      (hpublic ip hmem)

/-!
## Every request goes to the pinned address
-/

def Pinned (pin : Destination) (hostHeader : String) (hop : Hop) : Prop :=
  hop.connection = pin.connection ∧ hop.hostHeader = hostHeader

theorem connect_https {pin : Destination} {req : Request} (h : req.url.scheme = "https")
    (s : Net) :
    connect pin req s =
      (.ok (), { s with sent := s.sent ++ [⟨req.host, pin.connection, req.hostHeader⟩] }) := by
  unfold connect
  rw [h]
  rfl

/-- How a redirect ends: it raises, or makes a request over https with the same headers,
whose URL has been checked. -/
inductive Redirects (req : Request) (s : Net) : Outcome Raised Request × Net -> Prop
  | raised (e : Raised) (t : Net) (hsent : t.sent = s.sent)
      (hchecked : s.checked ⊆ t.checked) : Redirects req s (.raised e, t)
  | passed (new : Request) (t : Net) (hsent : t.sent = s.sent)
      (hchecked : s.checked ⊆ t.checked) (hscheme : new.url.scheme = "https")
      (hheader : new.hostHeader = req.hostHeader) :
      Redirects req s (.ok new, t)

theorem redirectRequest_cases (dns : Resolver) (req : Request) (code : Nat) (url : Url)
    (host : String) (s : Net) :
    Redirects req s (redirectRequest dns req code url host s) := by
  unfold redirectRequest
  rcases hrun : checkUrl dns (some url) s with ⟨o, t⟩
  have hchecks := checkUrl_cases dns (some url) s
  rw [hrun] at hchecks
  cases hchecks with
  | raised e lookups =>
      rw [Prog.bind_run_raised hrun]
      exact .raised e _ rfl (List.Subset.refl _)
  | passed parts host ip port lookups addresses hurl hnames hmem hpublic =>
      rw [Prog.bind_run_ok hrun]
      cases hurl
      split
      · exact .passed _ _ rfl (List.subset_cons_self _ _) hnames.left rfl
      · exact .raised _ _ rfl (List.subset_cons_self _ _)

theorem newRequest_cases (dns : Resolver) (req : Request) (code : Nat)
    (location : Option (Option Url)) (visited : List Url) (s : Net) :
    Redirects req s (newRequest dns req code location visited s) := by
  unfold newRequest
  split
  · exact .raised _ s rfl (List.Subset.refl _)
  · exact .raised _ s rfl (List.Subset.refl _)
  · rename_i target
    split
    · exact .raised _ s rfl (List.Subset.refl _)
    · split
      · exact .raised _ s rfl (List.Subset.refl _)
      · extract_lets target url host
        rcases hrun : redirectRequest dns req code url host s with ⟨o, t⟩
        have hredirects := redirectRequest_cases dns req code url host s
        rw [hrun] at hredirects
        cases hredirects with
        | raised e _ hsent hchecked =>
            rw [Prog.bind_run_raised hrun]
            exact .raised e t hsent hchecked
        | passed new _ hsent hchecked hscheme hheader =>
            rw [Prog.bind_run_ok hrun]
            split
            · exact .raised _ t hsent hchecked
            · exact .passed new t hsent hchecked hscheme hheader

theorem openRequest_pinned (dns : Resolver) (pin : Destination) :
    forall (responses : List Response) (visited : List Url) (req : Request) (s : Net),
      req.url.scheme = "https" -> forall hop,
      hop ∈ (openRequest dns pin responses visited req s).2.sent ->
        hop ∈ s.sent ∨ Pinned pin req.hostHeader hop := by
  intro responses
  induction responses with
  | nil =>
      intro visited req s hscheme hop hmem
      rw [openRequest, Prog.bind_run_ok (connect_https hscheme s)] at hmem
      rcases List.mem_append.mp hmem with hold | hnew
      · exact Or.inl hold
      · rw [List.mem_singleton.mp hnew]
        exact Or.inr ⟨rfl, rfl⟩
  | cons response rest ih =>
      intro visited req s hscheme hop hmem
      have hsent : forall {t : Net},
          t.sent = s.sent ++ [⟨req.host, pin.connection, req.hostHeader⟩] ->
          hop ∈ t.sent -> hop ∈ s.sent ∨ Pinned pin req.hostHeader hop := by
        intro t ht hhop
        rw [ht] at hhop
        rcases List.mem_append.mp hhop with hold | hnew
        · exact Or.inl hold
        · rw [List.mem_singleton.mp hnew]
          exact Or.inr ⟨rfl, rfl⟩
      have hconnect := @connect_https pin req hscheme s
      cases response with
      | failed =>
          rw [openRequest, Prog.bind_run_ok hconnect] at hmem
          exact hsent rfl hmem
      | final ok =>
          rw [openRequest, Prog.bind_run_ok hconnect] at hmem
          cases ok <;> exact hsent rfl hmem
      | redirect code location =>
          rw [openRequest, Prog.bind_run_ok hconnect] at hmem
          let now : Net :=
            { s with sent := s.sent ++ [⟨req.host, pin.connection, req.hostHeader⟩] }
          rcases hrun : newRequest dns req code location visited now with ⟨o, t⟩
          have hredirects := newRequest_cases dns req code location visited now
          rw [hrun] at hredirects
          cases hredirects with
          | raised e _ ht hchecked =>
              rw [Prog.bind_run_raised hrun] at hmem
              exact hsent ht hmem
          | passed new _ ht hchecked hscheme' hheader =>
              rw [Prog.bind_run_ok hrun] at hmem
              rcases ih _ new t hscheme' hop hmem with hold | hnew
              · exact hsent ht hold
              · rw [hheader] at hnew
                exact Or.inr hnew

theorem openRequest_keeps {inv : Net -> Prop} (dns : Resolver) (pin : Destination)
    (hsend : forall hop, Prog.Keeps inv (send hop))
    (hredirect : forall s t : Net, t.sent = s.sent -> s.checked ⊆ t.checked -> inv s -> inv t) :
    forall (responses : List Response) (visited : List Url) (req : Request),
      Prog.Keeps inv (openRequest dns pin responses visited req) := by
  have hconnect : forall req, Prog.Keeps inv (connect pin req) := by
    intro req
    unfold connect
    split
    · exact hsend _
    · exact hsend _
    · exact hsend _
    · exact Prog.Keeps.raise _
  intro responses
  induction responses with
  | nil =>
      intro visited req
      exact Prog.Keeps.bind (hconnect req) fun _ => Prog.Keeps.raise _
  | cons response rest ih =>
      intro visited req
      cases response with
      | failed => exact Prog.Keeps.bind (hconnect req) fun _ => Prog.Keeps.raise _
      | final ok =>
          refine Prog.Keeps.bind (hconnect req) fun _ => ?_
          cases ok
          · exact Prog.Keeps.raise _
          · exact Prog.Keeps.pure _
      | redirect code location =>
          refine Prog.Keeps.bind (hconnect req) fun _ =>
            Prog.Keeps.bind (fun s hs => ?_) fun new => ih _ new
          have hredirects := newRequest_cases dns req code location visited s
          rcases hrun : newRequest dns req code location visited s with ⟨o, t⟩
          rw [hrun] at hredirects
          cases hredirects with
          | raised e _ hsent hchecked => exact hredirect s t hsent hchecked hs
          | passed new _ hsent hchecked => exact hredirect s t hsent hchecked hs

theorem openRequest_checked (dns : Resolver) (pin : Destination) (x : String × List String)
    (responses : List Response) (visited : List Url) (req : Request) :
    Prog.Keeps (fun s => x ∈ s.checked) (openRequest dns pin responses visited req) :=
  openRequest_keeps dns pin (fun _ _ hs => hs) (fun _ _ _ hchecked hs => hchecked hs)
    responses visited req

/-!
## Public contacts only
-/

/-- The connection speaks TLS to a literal address that the public internet routes. -/
structure Connection.Public (c : Connection) : Prop where
  https : c.https = true
  passed : addressIsPublic c.address = true
  routed : exists address, IpAddress.read (literalHost c.address) = some address ∧
    (address.mapped.getD address).isGlobal = true ∧
    (address.mapped.getD address).isMulticast = false

theorem public_of_passed {c : Connection} (hhttps : c.https = true)
    (hpassed : addressIsPublic c.address = true) : c.Public := by
  refine ⟨hhttps, hpassed, ?_⟩
  unfold addressIsPublic at hpassed
  split at hpassed
  · cases hpassed
  · rename_i address hread
    refine ⟨address, hread, ?_⟩
    simpa using hpassed

theorem urlopenPublic_sent (dns : Resolver) (url : Option Url) (method : String)
    (responses : List Response) :
    let net := (urlopenPublic dns url method responses {}).2
    net.sent = [] ∨ exists parts pin addresses,
      url = some parts ∧ parts.Names pin.host ∧ addressIsPublic pin.ip = true ∧
      (pin.host, addresses) ∈ net.checked ∧ pin.ip ∈ addresses ∧
      forall hop, hop ∈ net.sent -> Pinned pin pin.host hop := by
  intro net
  rcases hrun : checkUrl dns url {} with ⟨o, t⟩
  have hchecks := checkUrl_cases dns url {}
  rw [hrun] at hchecks
  cases hchecks with
  | raised e lookups =>
      have hnet : net = { lookups } :=
        congrArg Prod.snd (Prog.bind_run_raised hrun)
      exact Or.inl (by rw [hnet])
  | passed parts host ip port lookups addresses hurl hnames hmem hpublic =>
      let pin : Destination := { host, ip, port }
      let first : Request :=
        { url := pinnedUrl parts pin, host := host, method, hostHeader := host }
      have hnet : net = (openRequest dns pin responses [] first
          { lookups, checked := [(host, addresses)] }).2 := by
        cases hurl
        exact congrArg Prod.snd (Prog.bind_run_ok hrun)
      refine Or.inr ⟨parts, pin, addresses, hurl, hnames, hpublic, ?_, hmem, ?_⟩
      · rw [hnet]
        exact openRequest_checked dns pin _ responses [] first _ List.mem_cons_self
      · intro hop hhop
        rw [hnet] at hhop
        rcases openRequest_pinned dns pin responses [] first _ hnames.left hop hhop with
          hold | hpinned
        · exact False.elim (List.not_mem_nil hold)
        · exact hpinned

/-- Every connection of `urlopen_public` and of `put_public` is public. -/
theorem public_contacts (dns : Resolver) (url : Option Url) (method : String)
    (responses : List Response) (response : Option Bool) :
    (forall hop, hop ∈ (urlopenPublic dns url method responses {}).2.sent ->
        hop.connection.Public) ∧
      forall hop, hop ∈ (putPublic dns url response {}).2.sent -> hop.connection.Public := by
  constructor
  · intro hop hhop
    rcases urlopenPublic_sent dns url method responses with
      hnone | ⟨parts, pin, addresses, _, _, hpublic, _, _, hpinned⟩
    · rw [hnone] at hhop
      exact False.elim (List.not_mem_nil hhop)
    · rw [(hpinned hop hhop).left]
      exact public_of_passed rfl hpublic
  · intro hop hhop
    rcases hrun : checkUrl dns url {} with ⟨o, t⟩
    have hchecks := checkUrl_cases dns url {}
    rw [hrun] at hchecks
    cases hchecks with
    | raised e lookups =>
        have hnet : (putPublic dns url response {}).2 = { lookups } :=
          congrArg Prod.snd (Prog.bind_run_raised hrun)
        rw [hnet] at hhop
        exact False.elim (List.not_mem_nil hhop)
    | passed parts host ip port lookups addresses hurl hnames hmem hpublic =>
        have hsent : hop ∈ [Hop.mk host (Destination.connection { host, ip, port }) host] := by
          unfold putPublic at hhop
          rw [Prog.bind_run_ok hrun] at hhop
          cases response with
          | none => exact hhop
          | some ok => cases ok <;> exact hhop
        rw [List.mem_singleton.mp hsent]
        exact public_of_passed rfl hpublic

/-!
## Redirects
-/

def Url.host (url : Url) : String := (url.netloc.map Netloc.hostname).getD ""

/-- The request goes to an address that was checked for the hop's own host, under that
host's name. -/
structure Hop.Reaches (hop : Hop) (checked : List (String × List String)) : Prop where
  address : exists addresses, (hop.host, addresses) ∈ checked ∧
    hop.connection.address ∈ addresses
  serverName : hop.connection.serverName = hop.host
  hostHeader : hop.hostHeader = hop.host

def followed (dns : Resolver) (pin : Destination) :
    List Response -> List Url -> Request -> Net -> List Url
  | .redirect code (some (some target)) :: rest, visited, req, s =>
      match newRequest dns req code (some (some target)) visited (connect pin req s).2 with
      | (.ok new, t) => target :: followed dns pin rest (visited ++ [new.url]) new t
      | _ => []
  | _, _, _, _ => []

/-- The Locations that `urlopen_public` follows. -/
def locationsFollowed (dns : Resolver) (url : Url) (method : String)
    (responses : List Response) : List Url :=
  match checkUrl dns (some url) {} with
  | (.ok pin, net) =>
      followed dns pin responses []
        { url := pinnedUrl url pin, host := pin.host, method, hostHeader := pin.host } net
  | _ => []

def Url.StaysOn (target : Url) (host : String) : Prop :=
  forall netloc, target.netloc = some netloc -> netloc.hostname = host

theorem Url.staysOn_iff {target : Url} {host : String} :
    target.StaysOn host <-> (target.netloc.map Netloc.hostname).getD host = host := by
  unfold Url.StaysOn
  cases target.netloc with
  | none => exact iff_of_true (fun _ h => by cases h) rfl
  | some netloc => simp

theorem newRequest_host {dns : Resolver} {req new : Request} {code : Nat}
    {location : Option (Option Url)} {visited : List Url} {s t : Net}
    (h : newRequest dns req code location visited s = (.ok new, t)) :
    exists target, location = some (some target) ∧
      new.host = (target.netloc.map Netloc.hostname).getD req.host := by
  unfold newRequest at h
  split at h
  · cases h
  · cases h
  · next target =>
    split at h
    · cases h
    · split at h
      · cases h
      · refine ⟨target, rfl, ?_⟩
        extract_lets target' url host at h
        have hhost : host = (target.netloc.map Netloc.hostname).getD req.host := by
          unfold host target'
          split <;> rfl
        rcases Prog.bind_eq_ok h with ⟨made, u, hmade, hrest⟩
        rw [← hhost]
        unfold redirectRequest at hmade
        rcases Prog.bind_eq_ok hmade with ⟨_, v, _, hmade⟩
        split at hmade
        · cases hmade
          split at hrest
          · cases hrest
          · cases hrest
            rfl
        · cases hmade

theorem first_sent (dns : Resolver) (pin : Destination) (responses : List Response)
    (visited : List Url) {req : Request} (hscheme : req.url.scheme = "https") (s : Net) :
    exists hop, hop ∈ (openRequest dns pin responses visited req s).2.sent ∧
      hop.host = req.host := by
  let hop : Hop := ⟨req.host, pin.connection, req.hostHeader⟩
  have hkeeps : forall rest visited req,
      Prog.Keeps (fun s => hop ∈ s.sent) (openRequest dns pin rest visited req) :=
    openRequest_keeps dns pin (fun _ _ hs => List.mem_append_left _ hs)
      (fun _ _ hsent _ hs => by rw [hsent]; exact hs)
  have hconnect := @connect_https pin req hscheme s
  refine ⟨hop, ?_, rfl⟩
  have hmem : hop ∈ (s.sent ++ [hop] : List Hop) := by simp
  cases responses with
  | nil =>
      rw [openRequest, Prog.bind_run_ok hconnect]
      exact hmem
  | cons response rest =>
      cases response with
      | failed =>
          rw [openRequest, Prog.bind_run_ok hconnect]
          exact hmem
      | final ok =>
          rw [openRequest, Prog.bind_run_ok hconnect]
          cases ok <;> exact hmem
      | redirect code location =>
          rw [openRequest, Prog.bind_run_ok hconnect]
          rcases hrun : newRequest dns req code location visited
            { s with sent := s.sent ++ [hop] } with ⟨o, t⟩
          have hredirects := newRequest_cases dns req code location visited
            { s with sent := s.sent ++ [hop] }
          rw [hrun] at hredirects
          cases hredirects with
          | raised e _ hsent =>
              rw [Prog.bind_run_raised hrun, hsent]
              exact hmem
          | passed new _ hsent =>
              rw [Prog.bind_run_ok hrun]
              have ht : hop ∈ t.sent := by
                rw [hsent]
                exact hmem
              exact hkeeps _ _ _ _ ht

/-- Every request of a chain names this host exactly when every Location that is followed
stays on it. -/
theorem openRequest_hosts (dns : Resolver) (pin : Destination) {host : String} :
    forall (responses : List Response) (visited : List Url) (req : Request) (s : Net),
      req.url.scheme = "https" -> req.host = host ->
      (forall hop, hop ∈ s.sent -> hop.host = host) ->
        ((forall hop, hop ∈ (openRequest dns pin responses visited req s).2.sent ->
            hop.host = host) <->
          forall target, target ∈ followed dns pin responses visited req s ->
            target.StaysOn host) := by
  intro responses
  induction responses with
  | nil =>
      intro visited req s hscheme hhost hs
      rw [openRequest, Prog.bind_run_ok (connect_https hscheme s)]
      exact iff_of_true (List.forall_mem_append.mpr ⟨hs, List.forall_mem_singleton.mpr hhost⟩)
        fun target hmem => False.elim (List.not_mem_nil hmem)
  | cons response rest ih =>
      intro visited req s hscheme hhost hs
      let now : Net := { s with sent := s.sent ++ [⟨req.host, pin.connection, req.hostHeader⟩] }
      have hconnect : connect pin req s = (.ok (), now) := connect_https hscheme s
      have hnow : forall {t : Net}, t.sent = now.sent ->
          forall hop, hop ∈ t.sent -> hop.host = host := by
        intro t ht
        rw [ht]
        exact List.forall_mem_append.mpr ⟨hs, List.forall_mem_singleton.mpr hhost⟩
      cases response with
      | failed =>
          rw [openRequest, Prog.bind_run_ok hconnect]
          exact iff_of_true (hnow rfl) fun target hmem => False.elim (List.not_mem_nil hmem)
      | final ok =>
          rw [openRequest, Prog.bind_run_ok hconnect]
          refine iff_of_true (fun hop hmem => ?_)
            fun target hmem => False.elim (List.not_mem_nil hmem)
          cases ok <;> exact hnow rfl hop hmem
      | redirect code location =>
          rw [openRequest, Prog.bind_run_ok hconnect]
          rcases hrun : newRequest dns req code location visited now with ⟨o, t⟩
          have hredirects := newRequest_cases dns req code location visited now
          rw [hrun] at hredirects
          cases hredirects with
          | raised e _ hsent =>
              rw [Prog.bind_run_raised hrun]
              refine iff_of_true (hnow hsent) fun target hmem => ?_
              rcases location with _ | _ | found
              · cases hmem
              · cases hmem
              · rw [followed, hconnect, hrun] at hmem
                cases hmem
          | passed new _ hsent _ hscheme' =>
              rcases newRequest_host hrun with ⟨target, rfl, hnew⟩
              rw [Prog.bind_run_ok hrun, followed, hconnect, hrun]
              simp only [List.forall_mem_cons]
              have hstays : target.StaysOn host <-> new.host = host := by
                rw [hnew, hhost]
                exact Url.staysOn_iff
              rw [hstays]
              constructor
              · intro hall
                have hhost' : new.host = host := by
                  rcases first_sent dns pin rest (visited ++ [new.url]) hscheme' t with
                    ⟨hop, hmem, hhop⟩
                  rw [← hhop]
                  exact hall hop hmem
                exact ⟨hhost', (ih _ new t hscheme' hhost' (hnow hsent)).mp hall⟩
              · rintro ⟨hhost', hrest⟩
                exact (ih _ new t hscheme' hhost' (hnow hsent)).mpr hrest

/-- The hosts that a call asks are the first URL's exactly when the Locations that it follows
stay there. -/
theorem sent_hosts_iff (dns : Resolver) (url : Url) (method : String)
    (responses : List Response) :
    (forall hop, hop ∈ (urlopenPublic dns (some url) method responses {}).2.sent ->
        hop.host = url.host) <->
      forall target, target ∈ locationsFollowed dns url method responses ->
        target.StaysOn url.host := by
  rcases hrun : checkUrl dns (some url) {} with ⟨o, t⟩
  have hchecks := checkUrl_cases dns (some url) {}
  unfold locationsFollowed
  rw [hrun] at hchecks ⊢
  cases hchecks with
  | raised e lookups =>
      rw [urlopenPublic, Prog.bind_run_raised hrun]
      exact iff_of_true (fun _ h => False.elim (List.not_mem_nil h))
        fun _ h => False.elim (List.not_mem_nil h)
  | passed parts host ip port lookups addresses hurl hnames =>
      cases hurl
      have hhost : host = url.host := by
        rcases hnames with ⟨_, netloc, hnetloc, hhost⟩
        rw [Url.host, hnetloc]
        exact hhost.symm
      rw [urlopenPublic, Prog.bind_run_ok hrun, ← hhost]
      exact openRequest_hosts dns { host, ip, port } responses [] _ _ hnames.left rfl
        fun hop hmem => False.elim (List.not_mem_nil hmem)

/-- Every hop reaches its host exactly when no Location that is followed names another host
than the first URL's. -/
theorem redirects_reach_iff (dns : Resolver) (url : Url) (method : String)
    (responses : List Response) :
    let net := (urlopenPublic dns (some url) method responses {}).2
    (forall hop, hop ∈ net.sent -> hop.Reaches net.checked) <->
      forall target, target ∈ locationsFollowed dns url method responses ->
        target.StaysOn url.host := by
  intro net
  rw [← sent_hosts_iff]
  rcases urlopenPublic_sent dns (some url) method responses with
    hnone | ⟨parts, pin, addresses, hurl, hnames, _, hchecked, hmem, hpinned⟩
  · constructor
    · intro _ hop hhop
      rw [hnone] at hhop
      exact False.elim (List.not_mem_nil hhop)
    · intro _ hop hhop
      rw [hnone] at hhop
      exact False.elim (List.not_mem_nil hhop)
  · have hfirst : url.host = pin.host := by
      rcases hnames with ⟨_, netloc, hnetloc, hhost⟩
      cases hurl
      rw [Url.host, hnetloc]
      exact hhost
    constructor
    · intro hreach hop hhop
      rw [hfirst, ← (hreach hop hhop).serverName, (hpinned hop hhop).left]
      rfl
    · intro hsame hop hhop
      have hhost : hop.host = pin.host := (hsame hop hhop).trans hfirst
      have hconnection := (hpinned hop hhop).left
      constructor
      · refine ⟨addresses, ?_, ?_⟩
        · rw [hhost]
          exact hchecked
        · rw [hconnection]
          exact hmem
      · rw [hconnection, hhost]
        rfl
      · rw [(hpinned hop hhop).right, hhost]

def toOtherHost : Program Unit :=
  urlopenPublic
    (fun _ host _ => some [if host = "a.example" then "93.184.216.34" else "8.8.8.8"])
    (some { scheme := "https", netloc := some { hostname := "a.example" } }) "GET"
    [.redirect 302 (some (some
      { scheme := "https", netloc := some { hostname := "b.example" }, path := "/f" })),
      .final true]

/-- The request for the other host goes to the first one, under its name. -/
theorem redirect_misses_host :
    exists hop, hop ∈ (toOtherHost {}).2.sent ∧ hop.host = "b.example" ∧
      hop.connection.address = "93.184.216.34" ∧ hop.connection.serverName = "a.example" ∧
      hop.hostHeader = "a.example" ∧ ¬hop.Reaches (toOtherHost {}).2.checked := by
  refine ⟨⟨"b.example", ⟨true, "93.184.216.34", 443, "a.example"⟩, "a.example"⟩, ?_,
    rfl, rfl, rfl, rfl, fun hreach => ?_⟩
  · decide
  · exact absurd hreach.serverName (by decide)

end NetPolicy
end MightyColab
