import Librespot.Programs
import Librespot.Runs
import Librespot.Errors
import Librespot.Hashcash
import Librespot.ChunkedReader
import Librespot.SwitchingSource
import Librespot.Zeroconf
import Librespot.Ids
import Librespot.Numerals
import Librespot.IdCodec
import Librespot.Swaps
import Librespot.OnDemand
import Librespot.Paging
import Librespot.TrackList
import Librespot.TrackSteps
import Librespot.Shuffle
import Librespot.TrackPages
import Librespot.TrackPositions
import Librespot.Lookahead
import Librespot.ContextResolver
import Librespot.ResolverPages
import Librespot.StationPages
import Librespot.AppPlayer
import Librespot.AppEvents
import Librespot.AppLists
import Librespot.AppSteps
import Librespot.AppControls
import Librespot.ReportedState
import Librespot.NilTracks
import Librespot.PageRequests
import Librespot.AppInvariants
import Librespot.PublishedState
import Librespot.QueueIds
import Librespot.Channels
import Librespot.VolumeUpdates
import Librespot.ChunkLocks
import Librespot.StreamCiphers
import Librespot.ShannonConn
import Librespot.ReceiveLoops
import Librespot.AccesspointClients
import Librespot.ServedPages
import Librespot.UidSeeks
import Librespot.ShuffleBranches
import Librespot.TrackListings
import Librespot.MercuryFrames
import Librespot.PacketAnswers
import Librespot.Streams
import Librespot.PlainMessages
import Librespot.MetadataPages
import Librespot.Interpolation
import Librespot.SeekPositions
import Librespot.RecvLoopEnds
import Librespot.ConnectionStops
import Librespot.ApiForwarding
import Librespot.ForwardedRequests
import Librespot.RunInputs
import Librespot.PlayerCommands
import Librespot.PlayerOutputs
import Librespot.SourceLocks
import Librespot.ChunkFetches
import Librespot.ChunkErrors
import Librespot.ChunkReads
import Librespot.ResourceReads
import Librespot.ZeroconfClaims
import Librespot.ReadSessions
import Librespot.CounterMode
import Librespot.AudioDecryptor
import Librespot.ReaderContracts
import Librespot.TrackSeeks
import Librespot.Base64
import Librespot.ByteReaders
import Librespot.LoginBlobs
import Librespot.LoginBlobBounds
import Librespot.LoginBlobLayout
import Librespot.QueueRoundTrip
import Librespot.MediaFormats
import Librespot.CdnUrls
import Librespot.VolumeRequests
import Librespot.SpclientRequests
import Librespot.PipeOutput
import Librespot.BitStrings
import Librespot.HashcashCandidates
import Librespot.ApResolver
import Librespot.Handshake
import Librespot.AlsaOutput
import Librespot.AlsaLoops
import Librespot.FueledLoops
import Librespot.VorbisDecoder
import Librespot.StreamPipeline
import Librespot.Login5
import Librespot.DealerMessages
import Librespot.ApiServer
