import PubSub.Client.Limits
import PubSub.Client.Parse
import PubSub.Client.Replies
import PubSub.Client.RoundTrip
import PubSub.Client.Socket
import PubSub.System.Completion
import PubSub.System.Console
import PubSub.System.Drain
import PubSub.System.EndOfFile
import PubSub.System.Exhaustion
import PubSub.System.Failures
import PubSub.System.Inbox
import PubSub.System.Lifetime
import PubSub.System.Linearization
import PubSub.System.Pace
import PubSub.System.Pairing
import PubSub.System.ReceivePath
import PubSub.System.Receiving
import PubSub.System.Semaphores
import PubSub.System.Sequential
import PubSub.System.Shutdown
import PubSub.System.Silence
import PubSub.System.Stopping
import PubSub.Tests.Echo
import PubSub.UserApp.Room
import PubSub.UserApp.Session
