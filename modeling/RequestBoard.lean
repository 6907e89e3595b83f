import RequestBoard.Cycles.Concurrent
import RequestBoard.Main
import RequestBoard.Proofs.Client.Names
import RequestBoard.Proofs.Client.Requests
import RequestBoard.Proofs.Counter.Exact
import RequestBoard.Proofs.Counter.Idle
import RequestBoard.Proofs.Cycles.Newest
import RequestBoard.Proofs.Cycles.Offers
import RequestBoard.Proofs.Cycles.RealTime
import RequestBoard.Proofs.Fetch.Shortcut
import RequestBoard.Proofs.Record.Compose
import RequestBoard.Proofs.Service.Blame
import RequestBoard.Proofs.Service.LastSuccess
import RequestBoard.Proofs.Startup.Checks
import RequestBoard.Proofs.Store.Compaction
import RequestBoard.Proofs.Store.Cut
import RequestBoard.Proofs.Store.Replay
import RequestBoard.Proofs.Table.Fields
import RequestBoard.Proofs.View.RoundTrip
