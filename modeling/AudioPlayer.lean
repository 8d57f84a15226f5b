import AudioPlayer.Lib.Steps
import AudioPlayer.Lib.Halts
import AudioPlayer.Lib.CInt
import AudioPlayer.Lib.Heap
import AudioPlayer.Lib.Cursor
import AudioPlayer.Lib.Tape
import AudioPlayer.Lib.Content
import AudioPlayer.Lib.Fifo
import AudioPlayer.Lib.Bytes
import AudioPlayer.Lib.Updates
import AudioPlayer.CommonEvent
import AudioPlayer.CommonFsm
import AudioPlayer.FsmThreads
import AudioPlayer.RingBuffer
import AudioPlayer.RingBufferSpsc
import AudioPlayer.CommonBuffer
import AudioPlayer.CommonBufferPush
import AudioPlayer.CommonBufferNodes
import AudioPlayer.AsyncTask
import AudioPlayer.AudioQueue
import AudioPlayer.PromptFlash
import AudioPlayer.CommonBufferSpsc
import AudioPlayer.CommonBufferSpscRuns
import AudioPlayer.Httpclient.Recv
import AudioPlayer.Httpclient.Retrieve
import AudioPlayer.Httpclient.Framing
import AudioPlayer.Httpclient.Parse
import AudioPlayer.Httpclient.Head
import AudioPlayer.Httpclient.HeadDecided
import AudioPlayer.Httpclient.Response
import AudioPlayer.Httpclient.Turns
import AudioPlayer.Httpclient.Ends
import AudioPlayer.CommonEventWait
import AudioPlayer.ComPlayer
import AudioPlayer.ComPlayerOutput
import AudioPlayer.SamplerateConvert
import AudioPlayer.SamplerateConvertRuns
import AudioPlayer.TrackEnd
import AudioPlayer.AudioFile
import AudioPlayer.AudioPlayerProcess
import AudioPlayer.CommonFsmLog
import AudioPlayer.AudioPlayerCallback
import AudioPlayer.HttpDownload.Process
import AudioPlayer.HttpDownload.Run
import AudioPlayer.HttpDownload.Resources
import AudioPlayer.HttpDownload.Pause
import AudioPlayer.HttpDownload.Outcomes
import AudioPlayer.HttpDownload.Position
import AudioPlayer.HttpDownload.AllEnd
import AudioPlayer.HttpDownload.Ranges
import AudioPlayer.DirectBuffer
import AudioPlayer.DirectBufferCalls
import AudioPlayer.Mp3Decoder
import AudioPlayer.AacDecoder
import AudioPlayer.DecoderCallbacks
import AudioPlayer.AacTail
import AudioPlayer.M4aTrack
import AudioPlayer.Mp3Output
import AudioPlayer.DecoderSeek
import AudioPlayer.ComPlayerSeek
import AudioPlayer.PcmTrans
import AudioPlayer.SeekOrigins
import AudioPlayer.Id3Tag
import AudioPlayer.ComPlayerProgress
import AudioPlayer.ElapsedTime
import AudioPlayer.AudioFile.Web
import AudioPlayer.AudioFile.Calls
import AudioPlayer.AudioFile.Steps
import AudioPlayer.AudioFile.Failures
import AudioPlayer.AudioFile.Preread
import AudioPlayer.AudioFile.TotalLength
import AudioPlayer.AudioFile.SeekReturns
import AudioPlayer.AudioFile.Content
import AudioPlayer.HttpDownload.View
import AudioPlayer.Httpclient.Request
import AudioPlayer.Httpclient.RequestHead
import AudioPlayer.Httpclient.ParseUrl
import AudioPlayer.HttpDownload.Location
import AudioPlayer.HttpDownload.Redirect
import AudioPlayer.Lib.Locate
import AudioPlayer.Lib.Scan
import AudioPlayer.Mp4ff.Sample
import AudioPlayer.Mp4ff.Open
