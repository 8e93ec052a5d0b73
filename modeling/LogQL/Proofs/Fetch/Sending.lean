import LogQL.Fetch.Client

/-!
# What a client sends

A request is prepared from an address and some options, and then sent; only redirects lead to more
requests. What is prepared depends on the address through the server and the user that it names, and
takes over the rest as it is, so that addresses on one server give one request but for the place
(`prepare_below`). What is sent is seen by a network that keeps a record (`Transport.recorded`), and
the first of it is what was prepared (`send_recorded`).
-/

namespace LogQL.Fetch

/-- The same request for another place on the server. -/
def Call.below (call : Call) (segments : List (List Char)) : Call :=
  { call with url := { call.url with path := .segments segments } }

/-- A request for another place on a server is the same but for the place, and can be made if and only
if that for the server can. -/
theorem Client.prepare_below {address address' : String} {segments : List (List Char)}
    (h : Url.read none address'.toList = (Url.read none address.toList).map fun u =>
      { u with path := .segments segments }) (c : Client) (o : Options) :
    c.prepare address' o = (c.prepare address o).map (·.below segments) := by
  unfold prepare
  rw [h]
  cases Url.read none address.toList with
  | error fault => rfl
  | ok url =>
      cases Header.ofOptions o with
      | error failure => rfl
      | ok map =>
          show (if (!Option.all Header.isValue o.bearerToken) = true then _
            else if (!decide (url.scheme = "http".toList ∨ url.scheme = "https".toList)) = true
              then _ else _) = Except.map _ (if (!Option.all Header.isValue o.bearerToken) = true
            then _ else if (!decide (url.scheme = "http".toList ∨ url.scheme = "https".toList)) = true
              then _ else _)
          split
          · rfl
          split <;> rfl

/-- A network that also keeps a record of the requests. -/
def Transport.recorded {σ : Type} (transport : Transport σ) : Transport (List Call × σ) :=
  fun call s => ((transport call s.2).1, s.1 ++ [call], (transport call s.2).2)

/-- The first request that is sent is the one that was prepared. -/
theorem Client.send_recorded {σ : Type} (transport : Transport σ) (left : Nat) (call : Call)
    (sent : List Call) (s : σ) :
    ∃ later, (send transport.recorded left call (sent, s)).2.1 = sent ++ call :: later := by
  induction left generalizing call sent s with
  | zero =>
      rcases hone : transport.recorded call (sent, s) with ⟨answer, sent', s'⟩
      have hsent : sent' = sent ++ [call] := (congrArg (·.2.1) hone).symm
      refine ⟨[], ?_⟩
      rw [send, hone]
      cases answer <;> exact hsent
  | succ left ih =>
      rcases hone : transport.recorded call (sent, s) with ⟨answer, sent', s'⟩
      have hsent : sent' = sent ++ [call] := (congrArg (·.2.1) hone).symm
      rw [send, hone]
      cases answer with
      | error fault => exact ⟨[], hsent⟩
      | ok a =>
          dsimp only
          cases redirect? call a with
          | none => exact ⟨[], hsent⟩
          | some url =>
              by_cases hleft : left = 0
              · exact ⟨[], by simpa [hleft] using hsent⟩
              · obtain ⟨later, hlater⟩ := ih (follow call url) sent' s'
                refine ⟨follow call url :: later, ?_⟩
                simp only [hleft, if_false]
                rw [hlater, hsent, List.append_assoc]
                rfl

end LogQL.Fetch
