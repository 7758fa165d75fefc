import ReadThrough.Cache.Slab
import ReadThrough.Cluster.Action
import ReadThrough.Cluster.Session
import ReadThrough.Cluster.Simulation
import ReadThrough.Flight.Calls
import ReadThrough.Flight.Interleaving
import ReadThrough.Http.RequestLine
import ReadThrough.Main
import ReadThrough.Net.Address
import ReadThrough.Proofs.Cache.Departures
import ReadThrough.Proofs.Cache.Inclusion
import ReadThrough.Proofs.Cache.Live
import ReadThrough.Proofs.Cache.Lookup
import ReadThrough.Proofs.Cache.Recency
import ReadThrough.Proofs.Cache.Room
import ReadThrough.Proofs.Cache.Tiered
import ReadThrough.Proofs.Cluster.Absences
import ReadThrough.Proofs.Cluster.Apart
import ReadThrough.Proofs.Cluster.Calls
import ReadThrough.Proofs.Cluster.Contents
import ReadThrough.Proofs.Cluster.Events
import ReadThrough.Proofs.Cluster.Fills
import ReadThrough.Proofs.Cluster.Forwarding
import ReadThrough.Proofs.Cluster.Frames
import ReadThrough.Proofs.Cluster.Freshness
import ReadThrough.Proofs.Cluster.Hops
import ReadThrough.Proofs.Cluster.Independence
import ReadThrough.Proofs.Cluster.Isolation
import ReadThrough.Proofs.Cluster.Leaders
import ReadThrough.Proofs.Cluster.Registry
import ReadThrough.Proofs.Cluster.Removal
import ReadThrough.Proofs.Cluster.Residue
import ReadThrough.Proofs.Cluster.Rounds
import ReadThrough.Proofs.Cluster.Sessions
import ReadThrough.Proofs.Cluster.Slices
import ReadThrough.Proofs.Cluster.Stations
import ReadThrough.Proofs.Cluster.Statistics
import ReadThrough.Proofs.Cluster.Transitions
import ReadThrough.Proofs.Cluster.Transparency
import ReadThrough.Proofs.Cluster.Turns
import ReadThrough.Proofs.Cluster.Verdicts
import ReadThrough.Proofs.Cluster.Waits
import ReadThrough.Proofs.Files.Confinement
import ReadThrough.Proofs.Flight.Handover
import ReadThrough.Proofs.Flight.Independence
import ReadThrough.Proofs.Flight.SingleFlight
import ReadThrough.Proofs.Flight.Slices
import ReadThrough.Proofs.Flight.Transitions
import ReadThrough.Proofs.Group.Agreement
import ReadThrough.Proofs.Group.Contents
import ReadThrough.Proofs.Http.Absence
import ReadThrough.Proofs.Http.DotSegments
import ReadThrough.Proofs.Http.Hop
import ReadThrough.Proofs.Http.Paths
import ReadThrough.Proofs.Ring.Contents
import ReadThrough.Proofs.Ring.Disruption
import ReadThrough.Proofs.Ring.Hash
import ReadThrough.Proofs.Ring.Labels
import ReadThrough.Proofs.Ring.Ownership
import ReadThrough.Proofs.Shares
import ReadThrough.Proofs.Text.Utf8
import ReadThrough.Settings.Reader
import ReadThrough.Settings.Yaml
import ReadThrough.Shares
import ReadThrough.Proofs.Settings.RoundTrip
import ReadThrough.Proofs.Metrics
import ReadThrough.Cache.Words
import ReadThrough.Proofs.Cache.Words
