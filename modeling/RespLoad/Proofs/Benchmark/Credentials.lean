import RespLoad.Proofs.Benchmark.Interruptions
import RespLoad.Proofs.Benchmark.Logging
import RespLoad.Proofs.Driver.CredentialThreads

/-!
# Credentials in a benchmark

Of the user and the password nothing but their lengths shows, except in the frames that carry them: two
benchmarks whose credentials have the same lengths print the same report, log the same, end with the same
exit code, leave the same network and make the same calls on each connection, the credentials in the
frames apart. That is so however their threads take their turns.
-/
namespace RespLoad

/-- The settings with other credentials, wherever these stand. -/
def Settings.withCredentials (settings : Settings) (user password : Bytes) (raw : Entries) :
    Settings :=
  { settings with user := user, password := password, raw := raw }

/-- Two benchmarks show the same. -/
structure Benchmark.SameOutput (a b : Benchmark) : Prop where
  report : a.report = b.report
  log : a.log = b.log
  exitCode : a.exitCode = b.exitCode

/-- Two benchmarks stand before the same network, and behind them are connections that differ in the rests
of the greetings only. -/
structure Progress.SameBut (first second : Target) (a b : Progress) : Prop where
  network : a.network = b.network
  connections : List.Forall₂ (first.SameConnection second) a.connections b.connections

namespace Target

/-- A target without a password greets nobody, so its connections tell the same calls. -/
theorem SameConnection.eq_of_no_password {first second : Target} {events events' : List Event}
    (h : first.SameConnection second events events') (hfirst : first.password.isEmpty = true)
    (hsecond : second.password.isEmpty = true) : events = events' := by
  have hno : ∀ target : Target, target.password.isEmpty = true → target.frame = [] := by
    intro target ht
    simp only [frame, greeting, ht, if_true, wire, List.flatMap_nil]
  obtain ⟨script, later, rfl, rfl, hcalls⟩ := h
  rw [hno first hfirst, hno second hsecond] at hcalls
  have hsame : ∀ event event', SameCallBut [] [] event event' → event = event' := by
    rintro _ _ (event | ⟨place, outcome⟩)
    · rfl
    · rfl
  have heq := hcalls.imp hsame
  rw [List.forall₂_eq_eq_eq] at heq
  rw [heq]

namespace SameButCredentials

variable {a b : Target} (h : a.SameButCredentials b)

include h

theorem runner (driver : Driver) (operation : Operation) (iterations : Nat)
    (progress other : Progress) (hp : progress.SameBut a b other) :
    (driver.runner a operation iterations progress).1 =
        (driver.runner b operation iterations other).1 ∧
      (driver.runner a operation iterations progress).2.SameBut a b
        (driver.runner b operation iterations other).2 := by
  obtain ⟨hattempt, hnetwork⟩ := h.run driver operation iterations other.network
  simp only [Driver.runner, hp.network, hattempt.result, hattempt.log, hnetwork, true_and]
  exact ⟨rfl, List.rel_append hp.connections hattempt.connections⟩

end SameButCredentials

end Target

namespace Settings

variable (settings : Settings) {user user' password password' : Bytes} (raw raw' : Entries)

theorem target_withCredentials (huser : user.length = user'.length)
    (hpassword : password.length = password'.length) :
    (settings.withCredentials user password raw).target.SameButCredentials
      (settings.withCredentials user' password' raw').target :=
  ⟨rfl, rfl, huser, hpassword⟩

/-- Nothing that is shown is read off the credentials. -/
theorem sameOutput_withCredentials (outcomes : List Outcome) :
    Benchmark.SameOutput ⟨settings.withCredentials user password raw, outcomes⟩
      ⟨settings.withCredentials user' password' raw', outcomes⟩ := ⟨rfl, rfl, rfl⟩

section Runs

variable {settings raw raw'} (huser : user.length = user'.length)
  (hpassword : password.length = password'.length)

include huser hpassword

/-- A run that writes its log has its counterpart, with the same outcomes and the same logger. -/
theorem RunsLogging.withCredentials {operations : List Operation} {progress later : Progress}
    {logger written : Logger} {outcomes : List Outcome}
    (h : (settings.withCredentials user password raw).RunsLogging operations progress logger outcomes
      later written) {other : Progress}
    (hp : progress.SameBut (settings.withCredentials user password raw).target
      (settings.withCredentials user' password' raw').target other) :
    ∃ later', (settings.withCredentials user' password' raw').RunsLogging operations other logger
        outcomes later' written ∧
      later.SameBut (settings.withCredentials user password raw).target
        (settings.withCredentials user' password' raw').target later' := by
  have htarget := settings.target_withCredentials raw raw' huser hpassword
  induction h generalizing other with
  | done progress logger => exact ⟨other, .done other logger, hp⟩
  | @aborts operation more progress logger call called failed policy =>
    rw [hp.network] at called
    obtain ⟨call', hcalled, hcall⟩ := htarget.callsLogging called
    have houtcome : call.outcome operation = call'.outcome operation := by
      simp only [LoggedCall.outcome, hcall.result]
    refine ⟨other.after call', ?_, hcall.network,
      List.rel_append hp.connections hcall.connections⟩
    rw [houtcome, hcall.logger]
    exact .aborts hcalled (hcall.result ▸ failed) policy
  | @goesOn operation more progress later logger written call outcomes called going rest ih =>
    rw [hp.network] at called
    obtain ⟨call', hcalled, hcall⟩ := htarget.callsLogging called
    have houtcome : call.outcome operation = call'.outcome operation := by
      simp only [LoggedCall.outcome, hcall.result]
    have hafter : (progress.after call).SameBut
        (settings.withCredentials user password raw).target
        (settings.withCredentials user' password' raw').target (other.after call') :=
      ⟨hcall.network, List.rel_append hp.connections hcall.connections⟩
    obtain ⟨later', hrest, hlater⟩ := ih hafter
    rw [houtcome, hcall.logger] at hrest
    rw [houtcome]
    exact ⟨later', .goesOn hcalled (hcall.result ▸ going) hrest, hlater⟩

end Runs

/-- The credentials do not leak. Of two benchmarks that differ in user, password and raw entries only, where
the users are equally long and the passwords are, the reports, the logs and the exit codes are the same,
and the calls on each connection are, but for the rests of the two greetings; these carry the credentials
in the same places and agree elsewhere, and without a password there are none. The second part is about
the benchmarks as they write their logs: whatever the threshold, and however the threads of the one take
their turns, the other can run so that its logger has written the same. -/
theorem credentials_do_not_leak (huser : user.length = user'.length)
    (hpassword : password.length = password'.length) (network : Network) :
    let first := settings.withCredentials user password raw
    let second := settings.withCredentials user' password' raw'
    ((first.benchmarkOn network).1.SameOutput (second.benchmarkOn network).1 ∧
      (first.benchmarkOn network).2.SameBut first.target second.target
        (second.benchmarkOn network).2) ∧
    (∀ logger benchmark progress written,
      first.BenchmarkLogging network logger benchmark progress written →
        ∃ benchmark' progress', second.BenchmarkLogging network logger benchmark' progress' written ∧
          benchmark.SameOutput benchmark' ∧
          progress.SameBut first.target second.target progress') ∧
    (password.isEmpty = false → ∃ before between after,
      first.target.frame = before ++ user ++ between ++ password ++ after ∧
        second.target.frame = before ++ user' ++ between ++ password' ++ after) ∧
    (password.isEmpty = true → ∀ events events',
      first.target.SameConnection second.target events events' → events = events') := by
  intro first second
  have htarget : first.target.SameButCredentials second.target :=
    settings.target_withCredentials raw raw' huser hpassword
  have hstart : Progress.SameBut first.target second.target { network := network }
      { network := network } := ⟨rfl, .nil⟩
  refine ⟨?_, ?_, htarget.frame_eq, ?_⟩
  · obtain ⟨houtcomes, hprogress⟩ := Runner.runEach_related
      (htarget.runner (Driver.choose settings.clients)) settings.onFailure settings.iterations
      settings.operations hstart
    have hfirst : (first.benchmarkOn network).1 = ⟨first, (first.benchmarkOn network).1.outcomes⟩ :=
      rfl
    have hsecond : (second.benchmarkOn network).1 =
        ⟨second, (first.benchmarkOn network).1.outcomes⟩ :=
      congrArg (Benchmark.mk second) houtcomes.symm
    rw [hfirst, hsecond]
    exact ⟨settings.sameOutput_withCredentials raw raw' _, hprogress⟩
  · rintro logger ⟨chosen, outcomes⟩ progress written ⟨hsettings, hruns⟩
    change chosen = first at hsettings
    subst chosen
    obtain ⟨progress', hruns', hprogress⟩ := hruns.withCredentials huser hpassword hstart
    exact ⟨⟨second, outcomes⟩, progress', ⟨rfl, hruns'⟩,
      settings.sameOutput_withCredentials raw raw' outcomes, hprogress⟩
  · intro hno events events' hevents
    exact hevents.eq_of_no_password hno (htarget.password_isEmpty ▸ hno)

/-- Two clients, of whom one is told that its credentials are wrong, after a frame that was accepted in two
pieces with the cut in the password. Each run has sent its own password, and the log quotes neither. -/
theorem credentials_do_not_leak_rejected :
    let settings : Settings := { operations := [.ping], iterations := 1, clients := 2 }
    let refusing : Peer := { sends := [.accept 29], reads := [.data (utf8 "-WRONGPASS\r\n")] }
    let network : Network := { scripts := [{ peer := refusing }] }
    let first := settings.withCredentials (utf8 "ann") (utf8 "secret") Entries.empty
    let second := settings.withCredentials (utf8 "bob") (utf8 "hunter") Entries.empty
    (first.benchmarkOn network).1.SameOutput (second.benchmarkOn network).1 ∧
    (∃ a p b q written,
      first.BenchmarkLogging network { threshold := .debug } a p written ∧
      second.BenchmarkLogging network { threshold := .debug } b q written ∧ a.SameOutput b) ∧
    (second.benchmarkOn network).1.log.map LogEntry.message = [
      utf8 "benchmarking 127.0.0.1:6380 with 1 iterations per operation",
      utf8 "connected to 127.0.0.1:6380",
      utf8 "PING benchmark failed: client 0: AUTH rejected by 127.0.0.1:6380: -WRONGPASS",
      utf8 "aborting run (on-error abort)"] ∧
    .send (utf8 "cret\r\n") (.accept 6) ∈ (first.benchmarkOn network).2.connections.flatten ∧
    .send (utf8 "nter\r\n") (.accept 6) ∈ (second.benchmarkOn network).2.connections.flatten := by
  intro settings refusing network first second
  obtain ⟨⟨houtput, -⟩, hlogging, -, -⟩ :=
    settings.credentials_do_not_leak Entries.empty Entries.empty
      (by decide : (utf8 "ann").length = (utf8 "bob").length)
      (by decide : (utf8 "secret").length = (utf8 "hunter").length) network
  obtain ⟨a, p, written, ha⟩ := first.exists_benchmarkLogging network { threshold := .debug }
  obtain ⟨b, q, hb, hsame, -⟩ := hlogging _ a p written ha
  exact ⟨houtput, ⟨a, p, b, q, written, ha, hb, hsame⟩, by decide +kernel, by decide +kernel,
    by decide +kernel⟩

end Settings

end RespLoad
